import NetSnmp.Mib.HintBounds
import NetSnmp.Mib.HintTermination
import NetSnmp.Mib.PrintedNumbers

/-!
# Values that are printed and read by a hint

For hints of numbers with separators, `parse_octet_hint` reads the octets from the text that is
printed for them. The printer and the parser go through the specifications in step.
-/

namespace NetSnmp

/-- A specification of numbers; its width may have leading zeros, and its separator is zero if it
has none. -/
structure NumberSpec where
  zeros : Nat
  width : Nat
  code : Byte
  separ : Byte
  positive : 0 < width
  small : width ≤ 4
  isNumber : code = 0x78 ∨ code = 0x64 ∨ code = 0x6f

/-- A character that is neither alphanumeric nor `*`. -/
def IsSeparator (c : Byte) : Prop := c ≠ 0 ∧ c ≠ 0x2a ∧ EndsNumber c

instance (c : Byte) : Decidable (IsSeparator c) := inferInstanceAs (Decidable (_ ∧ _))

/-- One or more specifications; only the last one may lack its separator. -/
structure NumberHint where
  front : List NumberSpec
  last : NumberSpec
  separated : ∀ spec ∈ front, IsSeparator spec.separ
  ended : last.separ = 0 ∨ IsSeparator last.separ

namespace NumberSpec

def text (spec : NumberSpec) : List Byte :=
  List.replicate spec.zeros 0x30 ++ digitChar spec.width :: spec.code ::
    if spec.separ = 0 then [] else [spec.separ]

def hintSpec (spec : NumberSpec) : HintSpec := ⟨spec.width, spec.code, spec.separ, 0⟩

def record (spec : NumberSpec) : ParseHints :=
  { length := spec.width, format := spec.code, separator := spec.separ }

def base (spec : NumberSpec) : Nat :=
  if spec.code = 0x78 then 16 else if spec.code = 0x64 then 10 else 8

end NumberSpec

def specsText (specs : List NumberSpec) : List Byte := specs.flatMap NumberSpec.text

/-- The octets of a length end with a specification; the last one is used again only if it has a
separator. -/
def NumberHint.EndsOn (hint : NumberHint) (length : Nat) : Prop :=
  ∃ k m, length = ((hint.front.take k).map NumberSpec.width).sum + m * hint.last.width ∧
    (0 < m → hint.front.length ≤ k) ∧ (hint.last.separ = 0 → m ≤ 1)

theorem specsText_cons (spec : NumberSpec) (specs : List NumberSpec) :
    specsText (spec :: specs) = spec.text ++ specsText specs := List.flatMap_cons

variable {spec last : NumberSpec} {front : List NumberSpec} {value octets rest : List Byte}

theorem NumberSpec.isdigit_width (spec : NumberSpec) : isdigit (digitChar spec.width) = true :=
  isdigit_digitChar (Nat.lt_of_le_of_lt spec.small (by decide))

theorem NumberSpec.code_facts (spec : NumberSpec) :
    isdigit spec.code = false ∧ spec.code ≠ 0 ∧ isFormat spec.code ∧ spec.code ≠ 0x61 ∧
      spec.code ≠ 0x74 := by
  rcases spec.isNumber with code | code | code <;> rw [code] <;> decide

theorem NumberSpec.base_facts (spec : NumberSpec) :
    2 ≤ spec.base ∧ spec.base ≤ 16 ∧ formatBase spec.code = some spec.base := by
  rcases spec.isNumber with code | code | code <;> rw [base, formatBase, code] <;> decide

theorem IsSeparator.ne_zero {c : Byte} (separ : IsSeparator c) : c ≠ 0 := separ.1

theorem NumberSpec.noNul_text (spec : NumberSpec) : 0 ∉ spec.text := by
  have width_ne : (0 : Byte) ≠ digitChar spec.width := by
    intro zero
    have digit := spec.isdigit_width
    rw [← zero] at digit
    nomatch digit
  simp only [text, List.mem_append, List.mem_replicate, List.mem_cons, not_or]
  refine ⟨fun zero => (nomatch zero.2), width_ne, spec.code_facts.2.1.symm, ?_⟩
  split
  · exact List.not_mem_nil
  next separ => exact fun zero => separ (List.mem_singleton.mp zero).symm

theorem noNul_specsText (specs : List NumberSpec) : 0 ∉ specsText specs := by
  intro zero
  rcases List.mem_flatMap.mp zero with ⟨spec, -, mem⟩
  exact spec.noNul_text mem

def NumberHint.string (hint : NumberHint) : CString :=
  ⟨specsText (hint.front ++ [hint.last]), noNul_specsText _⟩

inductive Covers (last : NumberSpec) : List NumberSpec → List Byte → Prop
  | done {front : List NumberSpec} : Covers last front []
  | next {front : List NumberSpec} {octets rest : List Byte}
      (length_eq : octets.length = (front.headD last).width)
      (goesOn : rest ≠ [] → IsSeparator (front.headD last).separ)
      (behind : Covers last front.tail rest) : Covers last front (octets ++ rest)

theorem covers_last (ended : last.separ = 0 ∨ IsSeparator last.separ) (m : Nat)
    (length_eq : value.length = m * last.width) (once : last.separ = 0 → m ≤ 1) :
    Covers last [] value := by
  induction m generalizing value with
  | zero =>
      rw [Nat.zero_mul, List.length_eq_zero_iff] at length_eq
      exact length_eq ▸ .done
  | succ m ih =>
      rw [Nat.succ_mul] at length_eq
      rw [← List.take_append_drop last.width value]
      apply Covers.next
      · exact List.length_take_of_le (by omega)
      · intro left
        apply ended.resolve_left
        intro noSeparator
        have single := once noSeparator
        have none : m = 0 := by omega
        rw [none, Nat.zero_mul] at length_eq
        exact left (List.drop_of_length_le (by omega))
      · apply ih
        · rw [List.length_drop]
          omega
        · intro noSeparator
          have single := once noSeparator
          omega

theorem NumberHint.covers_of_endsOn (hint : NumberHint) (endsOn : hint.EndsOn value.length) :
    Covers hint.last hint.front value := by
  rcases hint with ⟨front, last, separated, ended⟩
  rcases endsOn with ⟨k, m, length_eq, whole, once⟩
  dsimp only at *
  induction front generalizing k value with
  | nil =>
      rw [List.take_nil, List.map_nil, List.sum_nil, Nat.zero_add] at length_eq
      exact covers_last ended m length_eq once
  | cons spec front ih =>
      cases k with
      | zero =>
          have none : m = 0 := by
            by_contra positive
            exact absurd (whole (Nat.pos_of_ne_zero positive)) (Nat.not_succ_le_zero _)
          rw [none, List.take_zero, List.map_nil, List.sum_nil, Nat.zero_mul,
            List.length_eq_zero_iff] at length_eq
          exact length_eq ▸ .done
      | succ k =>
          rw [List.take_succ_cons, List.map_cons, List.sum_cons] at length_eq
          rw [← List.take_append_drop spec.width value]
          apply Covers.next
          · exact List.length_take_of_le (by omega)
          · exact fun _ => separated spec List.mem_cons_self
          · apply ih (fun other mem => separated other (List.mem_cons_of_mem _ mem)) k
            · rw [List.length_drop]
              omega
            · exact fun positive => Nat.le_of_succ_le_succ (whole positive)

theorem hintRecords_zeros (zeros : Nat) (text : List Byte) :
    hintRecords .hint23 {} (List.replicate zeros 0x30 ++ text) = hintRecords .hint23 {} text := by
  induction zeros with
  | zero => rfl
  | succ zeros ih =>
      have stays : ParseHints.lengthAddDigit {} 0x30 = {} := by decide +kernel
      rw [List.replicate_succ, List.cons_append, hintRecords, if_pos (by decide), stays, ih]

theorem lengthAddDigit_digitChar {width : Nat} (small : width < 10) :
    ParseHints.lengthAddDigit {} (digitChar width) = { length := width } := by
  have all : ∀ width < 10, ParseHints.lengthAddDigit {} (digitChar width) =
      { length := (width : Int) } := by decide +kernel
  exact all width small

theorem hintRecords_spec (spec : NumberSpec) (text : List Byte) :
    hintRecords .hint23 {} (spec.text ++ text) =
      hintRecords .hint124 { length := spec.width, format := spec.code }
        ((if spec.separ = 0 then [] else [spec.separ]) ++ text) := by
  have small : spec.width < 10 := Nat.lt_of_le_of_lt spec.small (by decide)
  rw [NumberSpec.text, List.append_assoc, hintRecords_zeros, List.cons_append, List.cons_append,
    hintRecords, if_pos spec.isdigit_width, lengthAddDigit_digitChar small, hintRecords,
    if_neg (ne_true_of_eq_false spec.code_facts.1), if_pos]
  rcases spec.isNumber with code | code | code
  · exact .inl code
  · exact .inr (.inl code)
  · exact .inr (.inr (.inl code))

theorem hintRecords_separator (separ : IsSeparator spec.separ) (text : List Byte) :
    hintRecords .hint124 { length := spec.width, format := spec.code }
        ((if spec.separ = 0 then [] else [spec.separ]) ++ text) =
      hintRecords .hint125 spec.record text := by
  rw [if_neg separ.ne_zero, List.singleton_append, hintRecords, if_neg separ.2.1,
    if_neg (ne_true_of_eq_false separ.2.2.2)]
  rfl

theorem hintRecords_digit {digit : Byte} (isDigit : isdigit digit = true) (text : List Byte) :
    hintRecords .hint23 {} (digit :: text) =
      hintRecords .hint23 (ParseHints.lengthAddDigit {} digit) text := by
  rw [hintRecords, if_pos isDigit]

theorem specsText_digit (spec : NumberSpec) (specs : List NumberSpec) :
    ∃ digit text, specsText (spec :: specs) = digit :: text ∧ isdigit digit = true := by
  rw [specsText, List.flatMap_cons, NumberSpec.text]
  cases spec.zeros with
  | zero => exact ⟨_, _, rfl, spec.isdigit_width⟩
  | succ zeros => exact ⟨_, _, rfl, by decide⟩

theorem isdigit_ne_star {c : Byte} (digit : isdigit c = true) : c ≠ 0x2a := by
  rintro rfl
  nomatch digit

theorem hintRecords_next (ph : ParseHints) (spec : NumberSpec) (specs : List NumberSpec) :
    hintRecords .hint125 ph (specsText (spec :: specs)) =
      (hintRecords .hint23 {} (specsText (spec :: specs))).behind ph := by
  rcases specsText_digit spec specs with ⟨digit, text, text_eq, isDigit⟩
  rw [text_eq, hintRecords_digit isDigit, hintRecords, if_neg (isdigit_ne_star isDigit),
    if_pos isDigit]

theorem hintRecords_specs (separated : ∀ spec ∈ front, IsSeparator spec.separ)
    (ended : last.separ = 0 ∨ IsSeparator last.separ) :
    hintRecords .hint23 {} (specsText (front ++ [last])) =
      ⟨front.map NumberSpec.record, some last.record⟩ := by
  induction front with
  | nil =>
      rw [List.nil_append, specsText, List.flatMap_singleton, ← List.append_nil last.text,
        hintRecords_spec]
      rcases ended with noSeparator | separ
      · rw [if_pos noSeparator]
        change HintRecords.mk [] _ = HintRecords.mk [] (some last.record)
        rw [NumberSpec.record, noSeparator]
      · rw [hintRecords_separator separ]
        rfl
  | cons spec front ih =>
      have separ := separated spec List.mem_cons_self
      have behind := ih fun other mem => separated other (List.mem_cons_of_mem _ mem)
      rw [List.cons_append, specsText, List.flatMap_cons, hintRecords_spec,
        hintRecords_separator separ]
      change hintRecords .hint125 spec.record (specsText (front ++ [last])) = _
      cases split : front ++ [last] with
      | nil => exact absurd split (by simp)
      | cons first specs =>
          rw [split] at behind
          rw [hintRecords_next, behind]
          rfl

theorem NumberHint.records (hint : NumberHint) :
    hintRecords .hint12 {} hint.string.chars =
      ⟨hint.front.map NumberSpec.record, some hint.last.record⟩ := by
  rw [← hintRecords_specs hint.separated hint.ended]
  change hintRecords .hint12 {} (specsText (hint.front ++ [hint.last])) = _
  cases split : hint.front ++ [hint.last] with
  | nil => exact absurd split (by simp)
  | cons first specs =>
      rcases specsText_digit first specs with ⟨digit, text, text_eq, isDigit⟩
      rw [text_eq, hintRecords_digit isDigit, hintRecords, if_neg (isdigit_ne_star isDigit),
        if_pos isDigit]

theorem NumberSpec.busy (spec : NumberSpec) : ¬ spec.record.Idle := by
  intro idle
  have noBase : formatBase spec.code = none := idle.1
  rw [spec.base_facts.2.2] at noBase
  nomatch noBase

theorem hintAdvances_numbers (front : List NumberSpec) (v : List Byte) :
    HintAdvances (some last.record) (front.map NumberSpec.record) v := by
  induction front generalizing v with
  | nil =>
      refine .inr fun ph mem => ?_
      rcases Option.some.inj mem with rfl
      exact last.busy
  | cons spec front ih =>
      exact .inr ⟨fun idle => absurd idle spec.busy, fun _ rest _ => ih rest⟩

theorem NumberSpec.takes (spec : NumberSpec) {number text : List Byte}
    (length_eq : octets.length = spec.width)
    (isNumber : IsNumber spec.base (octetsNumber octets) number)
    (separ : text ≠ [] → IsSeparator spec.separ) :
    spec.record.Takes (number ++ (if text = [] then [] else [spec.separ]) ++ text) [octets]
      text := by
  have few : octets.length ≤ 8 := by
    have small := spec.small
    omega
  have fits : octetsNumber octets < 2 ^ 63 := by
    have less := octetsNumber_lt octets
    have four : 256 ^ octets.length ≤ 256 ^ 4 :=
      Nat.pow_le_pow_right (by decide) (length_eq ▸ spec.small)
    omega
  have ends : ∀ c ∈ ((if text = [] then [] else [spec.separ]) ++ text).head?, EndsNumber c := by
    intro c mem
    by_cases ended : text = []
    · simp [ended] at mem
    · rw [if_neg ended] at mem
      rcases Option.some.inj mem with rfl
      exact (separ ended).2.2
  have number_eq := strtolEnd_number isNumber spec.base_facts.1 spec.base_facts.2.1 fits ends
  have octets_eq : numberOctets (octetsNumber octets : Int) spec.record.length = octets := by
    have back := numberOctets_octetsNumber few
    rwa [length_eq] at back
  have taken : spec.record.takeFormat
      (number ++ ((if text = [] then [] else [spec.separ]) ++ text)) =
        some (octets, (if text = [] then [] else [spec.separ]) ++ text) := by
    have base_eq : formatBase spec.record.format = some spec.base := spec.base_facts.2.2
    rw [ParseHints.takeFormat, base_eq]
    dsimp only
    rw [number_eq, Option.map_some, octets_eq]
  have skipped : spec.record.skipSeparator ((if text = [] then [] else [spec.separ]) ++ text) =
      some text := by
    by_cases ended : text = []
    · subst ended
      simp only [ParseHints.skipSeparator]
      split <;> rfl
    · simp only [ParseHints.skipSeparator, if_neg ended]
      exact (if_neg (separ ended).ne_zero).trans (if_pos rfl)
  rw [List.append_assoc]
  refine .last ⟨_, taken, skipped⟩ (fun atEnd => atEnd.1 rfl) fun again => ?_
  cases again

def NumberSpec.widthText (spec : NumberSpec) : List Byte :=
  List.replicate spec.zeros 0x30 ++ [digitChar spec.width]

theorem NumberSpec.text_append (spec : NumberSpec) (text : List Byte) :
    spec.text ++ text =
      spec.widthText ++ spec.code :: ((if spec.separ = 0 then [] else [spec.separ]) ++ text) := by
  simp [NumberSpec.text, widthText]

theorem NumberSpec.isdigit_widthText (spec : NumberSpec) :
    ∀ c ∈ spec.widthText, isdigit c = true := by
  intro c mem
  rcases List.mem_append.mp mem with zero | width
  · rw [(List.mem_replicate.mp zero).2]
    decide
  · rw [List.mem_singleton.mp width]
    exact spec.isdigit_width

theorem NumberSpec.textWidth_widthText (spec : NumberSpec) :
    textWidth 0 spec.widthText = spec.width := by
  have zeros (count : Nat) : textWidth 0 (List.replicate count 0x30) = 0 := by
    induction count with
    | zero => rfl
    | succ count ih => exact ih
  have digit := digitChar_toNat (Nat.lt_of_le_of_lt spec.small (by decide) : spec.width < 10)
  have front := zeros spec.zeros
  rw [textWidth] at front
  rw [textWidth, widthText, List.foldl_append, front, List.foldl_cons, List.foldl_nil, digit]
  omega

theorem behindStar_text (spec : NumberSpec) (text : List Byte) :
    (spec.text ++ text).head? ≠ some 0x2a ∧ behindStar (spec.text ++ text) = spec.text ++ text := by
  rcases specsText_digit spec [] with ⟨digit, behind, text_eq, isDigit⟩
  rw [specsText, List.flatMap_singleton] at text_eq
  have noStar : (spec.text ++ text).head? ≠ some 0x2a := by
    rw [text_eq]
    exact fun same => isdigit_ne_star isDigit (Option.some.inj same)
  exact ⟨noStar, if_neg noStar⟩

theorem formatText_text (spec : NumberSpec) (text : List Byte) :
    formatText (spec.text ++ text) =
      spec.code :: ((if spec.separ = 0 then [] else [spec.separ]) ++ text) := by
  rw [formatText, (behindStar_text spec text).2, spec.text_append,
    List.dropWhile_append_of_pos spec.isdigit_widthText,
    List.dropWhile_cons_of_neg (ne_true_of_eq_false spec.code_facts.1)]

theorem specWidth_text (spec : NumberSpec) (text : List Byte) :
    specWidth (spec.text ++ text) = spec.width := by
  rw [specWidth, (behindStar_text spec text).2, spec.text_append,
    List.takeWhile_append_of_pos spec.isdigit_widthText,
    List.takeWhile_cons_of_neg (ne_true_of_eq_false spec.code_facts.1), List.append_nil,
    spec.textWidth_widthText]

def StartsSpec (text : List Byte) : Prop := ∀ c ∈ text.head?, isdigit c = true

theorem literalAt_startsSpec {text : List Byte} (starts : StartsSpec text) (width : Nat) :
    literalAt width text = (0, text) := by
  cases text with
  | nil => rfl
  | cons c text =>
      have digit := starts c rfl
      have noLiteral : isLiteral width c = false := by simp [isLiteral, digit]
      rw [literalAt, if_neg (ne_true_of_eq_false noLiteral)]

theorem specAt_text {text : List Byte} (starts : StartsSpec text)
    (separ : spec.separ = 0 ∨ IsSeparator spec.separ) :
    specAt (spec.text ++ text) = (spec.hintSpec, text) := by
  have separ_eq : literalAt spec.width ((if spec.separ = 0 then [] else [spec.separ]) ++ text) =
      (spec.separ, text) := by
    rcases separ with noSeparator | separ
    · rw [if_pos noSeparator, noSeparator]
      exact literalAt_startsSpec starts _
    · have isLiteral_eq : isLiteral spec.width spec.separ = true := by
        have nonzero := Nat.pos_iff_ne_zero.mp spec.positive
        simp [isLiteral, separ.1, separ.2.1, separ.2.2.2, nonzero]
      rw [if_neg separ.1]
      exact if_pos isLiteral_eq
  simp only [specAt, formatText_text, specWidth_text, separ_eq, literalAt_startsSpec starts]
  rfl

theorem specComplete_text (spec : NumberSpec) (text : List Byte) :
    SpecComplete (spec.text ++ text) := by
  refine ⟨?_, ?_⟩
  · rw [formatText_text]
    exact List.cons_ne_nil _ _
  · rw [specWidth_text]
    exact Nat.lt_of_le_of_lt spec.small (by decide)

def specsBehind (last : NumberSpec) : List NumberSpec → List NumberSpec
  | [] => []
  | _ :: front => front ++ [last]

/-- The printer is in front of some specifications and the last one, or it uses the last one
again. -/
def Ready (last : NumberSpec) (front : List NumberSpec) (print : HintPrint) : Prop :=
  print.hint = specsText (front ++ [last]) ++ [0] ∨
    (front = [] ∧ print.hint = [0] ∧ print.spec = last.hintSpec)

theorem startsSpec_specsText (specs : List NumberSpec) : StartsSpec (specsText specs) := by
  cases specs with
  | nil => exact nofun
  | cons spec specs =>
      rcases specsText_digit spec specs with ⟨digit, text, text_eq, isDigit⟩
      rw [text_eq]
      intro c mem
      exact Option.some.inj mem ▸ isDigit

theorem Ready.readSpec {print : HintPrint} (ready : Ready last front print)
    (separ : (front.headD last).separ = 0 ∨ IsSeparator (front.headD last).separ)
    (left : print.cp ≠ []) :
    ∃ next, print.readSpec = .ok (1, next) ∧ next.spec = (front.headD last).hintSpec ∧
      next.hint = specsText (specsBehind last front) ++ [0] ∧ next.cp = print.cp ∧
        next.buf = print.buf := by
  rcases ready with text | ⟨rfl, ended, again⟩
  · have split : front ++ [last] = front.headD last :: specsBehind last front := by
      cases front <;> rfl
    rw [split, specsText_cons] at text
    have starts := startsSpec_specsText (specsBehind last front)
    have noNul := noNul_specsText (front.headD last :: specsBehind last front)
    rw [specsText_cons] at noNul
    have complete := specComplete_text (front.headD last) (specsText (specsBehind last front))
    have nonempty : (front.headD last).text ++ specsText (specsBehind last front) ≠ [] := by
      intro none
      rw [none] at complete
      exact complete.1 rfl
    have read := readSpec_eq noNul text nonempty left
    rw [if_pos complete, specAt_text starts separ, repeatsAt,
      if_neg (behindStar_text _ _).1] at read
    exact ⟨_, read, rfl, rfl, rfl, rfl⟩
  · exact ⟨print, readSpec_of_end ended, again, ended, rfl, rfl⟩

theorem ready_of_read {next : HintPrint} (spec_eq : next.spec = (front.headD last).hintSpec)
    (hint_eq : next.hint = specsText (specsBehind last front) ++ [0]) :
    Ready last front.tail next := by
  cases front with
  | nil => exact .inr ⟨rfl, hint_eq, spec_eq⟩
  | cons spec front => exact .inl hint_eq

variable {options : PrintOptions} {memory : PrintMemory} {savedOutLen : Nat}
  {savedHint : CString} {print : HintPrint}

theorem hexNumber_isNumber (options : PrintOptions) (hint : List Byte) (n : Nat) :
    ∃ number, hexNumber options spec.hintSpec (hint ++ [0]) n = .ok number ∧
      IsNumber 16 n number := by
  rw [hexNumber]
  split
  · split
    · exact ⟨_, rfl, .inr rfl⟩
    · split
      · cases hint with
        | nil => exact ⟨_, rfl, .inr rfl⟩
        | cons h hint =>
            refine ⟨if h = 0 then 0x30 :: sprintfNumber 16 n else sprintfNumber 16 n, rfl, ?_⟩
            split
            · exact .inr rfl
            · exact .inl rfl
      · exact ⟨_, rfl, .inl rfl⟩
  · exact ⟨_, rfl, .inl rfl⟩

theorem printFormat_number (options : PrintOptions) (hint : List Byte)
    (length_eq : octets.length = spec.width) (rest : List Byte) :
    ∃ number, IsNumber spec.base (octetsNumber octets) number ∧
      ∀ memory savedOutLen savedHint buf,
        printFormat options memory savedOutLen savedHint spec.hintSpec (hint ++ [0])
            (octets ++ rest) buf = memory.cstrcat number buf >>= fun buf => .ok (rest, buf) := by
  have few : octets.length ≤ 8 := by
    have small := spec.small
    omega
  have read := readNumber_append few rest
  rw [length_eq] at read
  have notText : ¬ (spec.hintSpec.code = 0x61 ∨ spec.hintSpec.code = 0x74) := by
    rintro (text | text)
    · exact spec.code_facts.2.2.2.1 text
    · exact spec.code_facts.2.2.2.2 text
  rcases spec.isNumber with code | code | code
  · rcases @hexNumber_isNumber spec options hint (octetsNumber octets) with
      ⟨number, number_eq, isNumber⟩
    refine ⟨number, ?_, fun memory savedOutLen savedHint buf => ?_⟩
    · rwa [NumberSpec.base, if_pos code]
    · have isHex : spec.hintSpec.code = 0x78 := code
      have read' : readNumber spec.hintSpec.width 0 (octets ++ rest) = _ := read
      rw [printFormat, if_neg notText, read']
      dsimp only
      rw [if_pos isHex, number_eq]
      rfl
  · refine ⟨sprintfNumber 10 (octetsNumber octets), ?_, fun memory savedOutLen savedHint buf => ?_⟩
    · rw [NumberSpec.base, code]
      exact .inl rfl
    · have isDecimal : spec.hintSpec.code = 0x64 := code
      have read' : readNumber spec.hintSpec.width 0 (octets ++ rest) = _ := read
      rw [printFormat, if_neg notText, read']
      dsimp only
      rw [isDecimal]
      rfl
  · refine ⟨sprintfNumber 8 (octetsNumber octets), ?_, fun memory savedOutLen savedHint buf => ?_⟩
    · rw [NumberSpec.base, code]
      exact .inl rfl
    · have isOctal : spec.hintSpec.code = 0x6f := code
      have read' : readNumber spec.hintSpec.width 0 (octets ++ rest) = _ := read
      rw [printFormat, if_neg notText, read']
      dsimp only
      rw [isOctal]
      rfl

theorem prints_printSeparator {separ : Byte} (nonzero : rest ≠ [] → separ ≠ 0)
    (buf : PrintBuf) :
    Prints memory buf (if rest = [] then [] else [separ])
      (printSeparator memory separ rest buf) := by
  rw [printSeparator]
  by_cases ended : rest = []
  · rw [if_pos ended, if_neg fun both => both.1 ended]
    exact (List.append_nil _).symm
  · rw [if_neg ended, if_pos ⟨ended, nonzero ended⟩]
    exact memory.prints_putSeparator separ buf

theorem printSpec_number (options : PrintOptions) (hint : List Byte)
    (length_eq : octets.length = spec.width) (separ : rest ≠ [] → IsSeparator spec.separ) :
    ∃ number, IsNumber spec.base (octetsNumber octets) number ∧
      ∀ memory savedOutLen savedHint buf,
        Meets (fun printed => ∃ buf' : PrintBuf,
            printed = .inr ⟨spec.hintSpec, hint ++ [0], rest, buf'⟩ ∧
              buf'.text = buf.text ++ (number ++ (if rest = [] then [] else [spec.separ])))
          (fun reason => reason = .noRoom ∧ ¬ memory.Unlimited)
          (HintPrint.printSpec options memory savedOutLen savedHint
            ⟨spec.hintSpec, hint ++ [0], octets ++ rest, buf⟩ 1) := by
  rcases printFormat_number options hint length_eq rest with ⟨number, isNumber, format_eq⟩
  refine ⟨number, isNumber, fun memory savedOutLen savedHint buf => ?_⟩
  have positive : ¬ spec.hintSpec.width = 0 := Nat.pos_iff_ne_zero.mp spec.positive
  have left : octets ++ rest ≠ [] := by
    intro none
    rw [(List.append_eq_nil_iff.mp none).1] at length_eq
    exact positive length_eq.symm
  rw [HintPrint.printSpec, if_neg positive]
  dsimp only
  rw [printRepeats, if_neg left, format_eq]
  have printed := memory.prints_cstrcat number buf
  cases cat : memory.cstrcat number buf with
  | error reason =>
      rw [cat] at printed
      exact printed
  | ok buf' =>
      rw [cat] at printed
      change buf'.text = buf.text ++ number at printed
      have separated := @prints_printSeparator rest memory spec.separ
        (fun more => (separ more).ne_zero) buf'
      change Meets _ _
        ((printSeparator memory spec.separ rest buf' >>= fun buf => .ok (rest, buf)) >>= _)
      cases behind : printSeparator memory spec.separ rest buf' with
      | error reason =>
          rw [behind] at separated
          exact separated
      | ok last =>
          rw [behind] at separated
          change last.text = buf'.text ++ _ at separated
          have noTerm : printSeparator memory spec.hintSpec.term rest last = .ok last :=
            if_neg fun both => both.2 rfl
          change Meets _ _ (printSeparator memory spec.hintSpec.term rest last >>= _)
          rw [noTerm]
          refine ⟨last, rfl, ?_⟩
          rw [separated, printed, List.append_assoc]

structure HintReadsBack (last : NumberSpec) (front : List NumberSpec) (value text : List Byte) :
    Prop where
  outcome : HintOutcome (some last.record) (front.map NumberSpec.record) text (.parsed value)
  noNul : 0 ∉ text
  nil_iff : text = [] ↔ value = []

theorem HintReadsBack.next {number text : List Byte} (length_eq : octets.length = (front.headD last).width)
    (isNumber : IsNumber (front.headD last).base (octetsNumber octets) number)
    (separ : rest ≠ [] → IsSeparator (front.headD last).separ)
    (readsBack : HintReadsBack last front.tail rest text) :
    HintReadsBack last front (octets ++ rest)
      ((number ++ if rest = [] then [] else [(front.headD last).separ]) ++ text) := by
  have large := (front.headD last).base_facts.1
  have small := (front.headD last).base_facts.2.1
  have nonempty := isNumber.ne_nil large
  have takes := (front.headD last).takes length_eq isNumber
    fun more => separ fun ended => more (readsBack.nil_iff.mpr ended)
  simp only [readsBack.nil_iff] at takes
  refine ⟨?_, ?_, ?_⟩
  · have next_eq : nextRecord (some last.record) (front.map NumberSpec.record) =
        some ((front.headD last).record, front.tail.map NumberSpec.record) := by
      cases front <;> rfl
    have outcome := HintOutcome.taken (by simp [nonempty]) next_eq takes readsBack.outcome
    simpa [ParseHints.encode, NumberSpec.record, HintReturn.after] using outcome
  · simp only [List.mem_append, not_or]
    refine ⟨⟨isNumber.noNul large small, ?_⟩, readsBack.noNul⟩
    split
    · exact List.not_mem_nil
    next more => exact fun zero => (separ more).ne_zero (List.mem_singleton.mp zero).symm
  · apply iff_of_false
    · simp [nonempty]
    · intro none
      have positive := (front.headD last).positive
      rw [(List.append_eq_nil_iff.mp none).1] at length_eq
      exact absurd length_eq.symm (Nat.pos_iff_ne_zero.mp positive)

theorem Covers.prints {print : HintPrint} (covers : Covers last front value)
    (separ : ∀ spec ∈ front, spec.separ = 0 ∨ IsSeparator spec.separ)
    (ended : last.separ = 0 ∨ IsSeparator last.separ) (ready : Ready last front print)
    (value_eq : print.cp = value) (options : PrintOptions) :
    ∃ text, HintReadsBack last front value text ∧ ∀ memory savedOutLen savedHint buf,
      ∃ result, (∀ call, PassesEnd (HintPrint.pass options memory savedOutLen savedHint) call
          { print with buf } result) ∧
        Prints memory buf text result := by
  induction covers generalizing print with
  | done =>
      refine ⟨[], ⟨.done, List.not_mem_nil, iff_of_true rfl rfl⟩, ?_⟩
      intro memory savedOutLen savedHint buf
      exact ⟨.ok buf, fun call => passesEnd_of_last (if_pos value_eq), (List.append_nil _).symm⟩
  | @next front octets rest length_eq goesOn behind ih =>
      have left : print.cp ≠ [] := by
        rw [value_eq]
        intro none
        have positive := (front.headD last).positive
        rw [(List.append_eq_nil_iff.mp none).1] at length_eq
        exact absurd length_eq.symm (Nat.pos_iff_ne_zero.mp positive)
      have separHead : (front.headD last).separ = 0 ∨ IsSeparator (front.headD last).separ := by
        cases front with
        | nil => exact ended
        | cons spec front => exact separ spec List.mem_cons_self
      have read (buf : PrintBuf) : HintPrint.readSpec { print with buf } =
          .ok (1, ⟨(front.headD last).hintSpec, specsText (specsBehind last front) ++ [0],
            octets ++ rest, buf⟩) := by
        have ready' : Ready last front { print with buf } := ready
        rcases ready'.readSpec separHead left with ⟨next, read, spec_eq, hint_eq, cp_eq, buf_eq⟩
        have next_cp : next.cp = octets ++ rest := cp_eq.trans value_eq
        have next_buf : next.buf = buf := buf_eq
        rw [read, ← spec_eq, ← hint_eq, ← next_cp, ← next_buf]
      rcases printSpec_number options (specsText (specsBehind last front)) length_eq goesOn with
        ⟨number, isNumber, printed⟩
      let next : HintPrint := ⟨(front.headD last).hintSpec,
        specsText (specsBehind last front) ++ [0], rest, print.buf⟩
      rcases @ih next (fun spec mem => separ spec (List.mem_of_mem_tail mem))
        (ready_of_read rfl rfl) rfl with ⟨text, readsBack, prints⟩
      refine ⟨_, readsBack.next length_eq isNumber goesOn, ?_⟩
      intro memory savedOutLen savedHint buf
      have more : ¬ HintPrint.cp { print with buf } = [] := left
      have passed (call : Nat) := (HintPrint.pass.eq_1 options memory savedOutLen savedHint call
        { print with buf }).trans (if_neg more)
      simp only [read buf, bind, Except.bind] at passed
      have meets := printed memory savedOutLen savedHint buf
      cases printed_eq : HintPrint.printSpec options memory savedOutLen savedHint
          ⟨(front.headD last).hintSpec, specsText (specsBehind last front) ++ [0],
            octets ++ rest, buf⟩ 1 with
      | error reason =>
          rw [printed_eq] at meets passed
          exact ⟨.error reason, fun call => passesEnd_of_last (passed call), meets⟩
      | ok state =>
          rw [printed_eq] at meets passed
          rcases meets with ⟨buf', rfl, text_eq⟩
          rcases prints memory savedOutLen savedHint buf' with ⟨result, ends, printsRest⟩
          refine ⟨result, fun call => (passesEnd_iff_next (passed call)).mpr (ends _), ?_⟩
          apply Meets.imp printsRest _ fun _ left => left
          intro last last_text
          rw [last_text, text_eq, List.append_assoc]

theorem HintOutcome.unique {last : Option ParseHints} {records : List ParseHints}
    {v : List Byte} {ret ret' : HintReturn} (outcome : HintOutcome last records v ret)
    (outcome' : HintOutcome last records v ret') : ret = ret' := by
  induction outcome generalizing ret' with
  | done =>
      cases outcome' with
      | done => rfl
      | refused left _ => exact absurd rfl left
      | failed left _ _ => exact absurd rfl left
      | taken left _ _ _ => exact absurd rfl left
  | refused left next =>
      cases outcome' with
      | done => exact absurd rfl left
      | refused _ _ => rfl
      | failed _ _ _ => rfl
      | taken _ next' _ _ => nomatch next.symm.trans next'
  | failed left next fails =>
      cases outcome' with
      | done => exact absurd rfl left
      | refused _ _ => rfl
      | failed _ _ _ => rfl
      | taken _ next' takes _ =>
          cases next.symm.trans next'
          exact absurd takes (fails _ _)
  | taken left next takes _ ih =>
      cases outcome' with
      | done => exact absurd rfl left
      | refused _ next' => nomatch next.symm.trans next'
      | failed _ next' fails =>
          cases next.symm.trans next'
          exact absurd takes (fails _ _)
      | taken _ next' takes' outcome' =>
          cases next.symm.trans next'
          have same := (parseHintsParse_of_takes takes).unique (parseHintsParse_of_takes takes')
          rcases Prod.mk.inj (Option.some.inj same) with ⟨octets_eq, rest_eq⟩
          rw [← rest_eq] at outcome'
          rw [ih outcome', octets_eq]

theorem ofBuffer_printed {start buf : PrintBuf} {text : List Byte}
    (text_eq : buf.text = start.text ++ text) (nul : buf.octets[buf.outLen]? = some 0)
    (noNul : 0 ∉ text) :
    CString.ofBuffer (buf.octets.drop start.outLen) = ⟨text, noNul⟩ := by
  have split : buf.octets.drop start.outLen = text ++ buf.octets.drop buf.outLen := by
    have whole := List.take_append_drop buf.outLen buf.octets
    change buf.text ++ _ = _ at whole
    rw [text_eq, List.append_assoc] at whole
    have dropped : (start.text ++ (text ++ buf.octets.drop buf.outLen)).drop start.outLen =
        text ++ buf.octets.drop buf.outLen := List.drop_left' start.length_text
    rw [← dropped, whole]
  rcases List.getElem?_eq_some_iff.mp nul with ⟨inside, nul_eq⟩
  rw [split, List.drop_eq_getElem_cons inside, nul_eq]
  apply CString.ext
  change (text ++ 0 :: _).takeWhile _ = text
  have plain : ∀ c ∈ text, decide (c ≠ 0) = true := fun c mem =>
    decide_eq_true (ne_of_mem_of_not_mem mem noNul)
  rw [List.takeWhile_append_of_pos plain]
  simp

/-- The text that a hint of numbers prints for a value is read as the value, if the value ends with
a specification; there is no text only if memory runs out. -/
theorem parseOctetHint_printed (hint : NumberHint) (value : List Byte)
    (endsOn : hint.EndsOn value.length) (hex2digit : Bool) (memory : PrintMemory)
    (buf : PrintBuf) :
    ∃ result, Settles (fun fuel => sprintReallocOctetString fuel ⟨true, hex2digit⟩ memory
        hint.string value none buf) result ∧
      Meets (fun printed : PrintBuf => Settles (fun fuel => parseOctetHint fuel hint.string
          (CString.ofBuffer (printed.octets.drop buf.outLen))) (.parsed value))
        (fun reason => reason = .noRoom ∧ ¬ memory.Unlimited) result := by
  have covers := hint.covers_of_endsOn endsOn
  let print : HintPrint := { hint := hint.string.chars ++ [0], cp := value, buf := buf }
  rcases @Covers.prints hint.last hint.front value print covers
    (fun spec mem => .inr (hint.separated spec mem)) hint.ended (.inl rfl) rfl ⟨true, hex2digit⟩
    with ⟨text, readsBack, prints⟩
  rcases prints memory buf.outLen hint.string buf with ⟨result, ends, printed⟩
  refine ⟨result >>= finishPrint memory none,
    Settles.map (ends 0) fun printed => printed >>= finishPrint memory none, ?_⟩
  apply Meets.bind printed
  intro last text_eq
  apply (memory.end_meets last).imp _ fun _ left => left
  rintro ended ⟨ended_text, nul⟩
  rw [ofBuffer_printed (ended_text.trans text_eq) nul readsBack.noNul]
  have advances : HintAdvances (hintRecords .hint12 {} hint.string.chars).last
      (hintRecords .hint12 {} hint.string.chars).ended text := by
    rw [hint.records]
    exact hintAdvances_numbers hint.front text
  rcases ((parseOctetHint_reads_iff hint.string ⟨text, readsBack.noNul⟩).mpr advances).returns with
    ⟨ret, returned, outcome⟩
  rw [hint.records] at outcome
  rw [← outcome.unique readsBack.outcome]
  exact returned

/-- `1d.2x:` -/
def dottedHint : NumberHint where
  front := [⟨0, 1, 0x64, 0x2e, by decide, by decide, by decide⟩]
  last := ⟨0, 2, 0x78, 0x3a, by decide, by decide, by decide⟩
  separated := by decide
  ended := by decide

theorem parseOctetHint_printed_dotted :
    ∃ result, Settles (fun fuel => sprintReallocOctetString fuel ⟨true, false⟩
        ⟨true, fun _ => true⟩ dottedHint.string [10, 1, 2, 0, 255] none ⟨[], 0, Nat.le_refl 0⟩)
        result ∧
      Meets (fun printed : PrintBuf => Settles (fun fuel => parseOctetHint fuel dottedHint.string
          (CString.ofBuffer (printed.octets.drop 0))) (.parsed [10, 1, 2, 0, 255]))
        (fun reason => reason = .noRoom ∧ ¬ PrintMemory.Unlimited ⟨true, fun _ => true⟩) result :=
  parseOctetHint_printed dottedHint [10, 1, 2, 0, 255] ⟨1, 2, by decide⟩ false _ _

end NetSnmp
