import NetSnmp.Mib.PrintHint

/-!
# Where hints are printed without a stray access

The printing of a value by a hint ends, and nothing outside of the hint, of the value and of the
buffer is read or written, unless a specification is cut short: it has no format letter, or a width
that is no `int`.
-/

namespace NetSnmp

def textWidth (width : Nat) (digits : List Byte) : Nat :=
  digits.foldl (fun width digit => width * 10 + (digit.toNat - 0x30)) width

def behindStar (hint : List Byte) : List Byte :=
  if hint.head? = some 0x2a then hint.tail else hint

def specWidth (hint : List Byte) : Nat := textWidth 0 ((behindStar hint).takeWhile isdigit)

def formatText (hint : List Byte) : List Byte := (behindStar hint).dropWhile isdigit

/-- The first specification has a format letter, and a width that is an `int`. -/
def SpecComplete (hint : List Byte) : Prop := formatText hint ≠ [] ∧ specWidth hint < 2 ^ 31

instance (hint : List Byte) : Decidable (SpecComplete hint) := inferInstanceAs (Decidable (_ ∧ _))

def literalAt (width : Nat) : List Byte → Byte × List Byte
  | [] => (0, [])
  | ch :: text => if isLiteral width ch then (ch, text) else (0, ch :: text)

def specAt (hint : List Byte) : HintSpec × List Byte :=
  match formatText hint with
  | [] => ({}, [])
  | code :: text =>
      let separ := literalAt (specWidth hint) text
      let term := literalAt (specWidth hint) separ.2
      (⟨specWidth hint, code, separ.1, term.1⟩, term.2)

def repeatsAt (hint value : List Byte) : Nat × List Byte :=
  if hint.head? = some 0x2a then ((value.headD 0).toNat, value.tail) else (1, value)

def isFormat (code : Byte) : Bool :=
  code = 0x61 || code = 0x74 || code = 0x78 || code = 0x64 || code = 0x6f

def SpecGoesOn (hint value : List Byte) : Prop :=
  let repeats := repeatsAt hint value
  isFormat (specAt hint).1.code ∨ (specAt hint).1.width = 0 ∨ repeats.1 = 0 ∨ repeats.2 = []

def octetsBehind (hint value : List Byte) : List Byte :=
  let repeats := repeatsAt hint value
  repeats.2.drop (repeats.1 * (specAt hint).1.width)

/-- The printer comes to a specification that is cut short while octets are left. -/
inductive HintCutShort : List Byte → List Byte → Prop
  | here {hint value : List Byte} (text : hint ≠ []) (left : value ≠ [])
      (cut : ¬ SpecComplete hint) : HintCutShort hint value
  | behind {hint value : List Byte} (text : hint ≠ []) (left : value ≠ [])
      (complete : SpecComplete hint) (goesOn : SpecGoesOn hint value)
      (cutBehind : HintCutShort (specAt hint).2 (octetsBehind hint value)) :
      HintCutShort hint value

variable {hint value text : List Byte} {width : Nat}

theorem le_textWidth (width : Nat) (digits : List Byte) : width ≤ textWidth width digits := by
  induction digits generalizing width with
  | nil => exact Nat.le_refl _
  | cons digit digits ih =>
      have next := ih (width * 10 + (digit.toNat - 0x30))
      change width ≤ textWidth (width * 10 + (digit.toNat - 0x30)) digits
      omega

theorem literalAt_suffix (width : Nat) (text : List Byte) : (literalAt width text).2 <:+ text := by
  cases text with
  | nil => exact List.suffix_refl _
  | cons ch text =>
      rw [literalAt]
      split
      · exact List.suffix_cons _ _
      · exact List.suffix_refl _

theorem behindStar_suffix (hint : List Byte) : behindStar hint <:+ hint := by
  rw [behindStar]
  split
  · exact List.tail_suffix _
  · exact List.suffix_refl _

theorem formatText_suffix (hint : List Byte) : formatText hint <:+ hint :=
  (List.dropWhile_suffix _).trans (behindStar_suffix hint)

theorem SpecComplete.behind (complete : SpecComplete hint) :
    (specAt hint).2 <:+ hint ∧ (specAt hint).2.length < hint.length := by
  have format_suffix := formatText_suffix hint
  rw [specAt]
  cases format : formatText hint with
  | nil => exact absurd format complete.1
  | cons code text =>
      rw [format] at format_suffix
      have suffix : (literalAt (specWidth hint) (literalAt (specWidth hint) text).2).2 <:+ text :=
        (literalAt_suffix _ _).trans (literalAt_suffix _ _)
      have longer := format_suffix.length_le
      rw [List.length_cons] at longer
      exact ⟨suffix.trans ((List.suffix_cons code text).trans format_suffix),
        Nat.lt_of_le_of_lt suffix.length_le longer⟩

theorem readWidth_eq (noNul : 0 ∉ text) (small : width < 2 ^ 31) :
    readWidth width (text ++ [0]) =
      if textWidth width (text.takeWhile isdigit) < 2 ^ 31 then
        .ok (textWidth width (text.takeWhile isdigit), text.dropWhile isdigit ++ [0])
      else .error .undefined := by
  induction text generalizing width with
  | nil => exact (if_pos small).symm
  | cons ch text ih =>
      rw [List.mem_cons, not_or] at noNul
      rw [List.cons_append, readWidth]
      cases digit : isdigit ch with
      | false =>
          simp only [digit, Bool.false_eq_true, if_false, not_false_eq_true,
            List.takeWhile_cons_of_neg, List.dropWhile_cons_of_neg]
          exact (if_pos small).symm
      | true =>
          rw [List.takeWhile_cons_of_pos digit, List.dropWhile_cons_of_pos digit, if_pos rfl]
          by_cases fits : width * 10 + (ch.toNat - 0x30) < 2 ^ 31
          · rw [if_pos fits, ih noNul.2 fits]
            rfl
          · rw [if_neg fits]
            symm
            apply if_neg
            have more := le_textWidth (width * 10 + (ch.toNat - 0x30)) (text.takeWhile isdigit)
            change ¬ textWidth (width * 10 + (ch.toNat - 0x30)) (text.takeWhile isdigit) < 2 ^ 31
            omega

theorem readLiteral_eq (width : Nat) (text : List Byte) :
    readLiteral width (text ++ [0]) =
      .ok ((literalAt width text).1, (literalAt width text).2 ++ [0]) := by
  cases text with
  | nil => rfl
  | cons ch text =>
      rw [List.cons_append, readLiteral, literalAt]
      cases isLiteral width ch with
      | false => rfl
      | true => rfl

theorem readFormat_eq (noNul : 0 ∉ hint) :
    readFormat (behindStar hint ++ [0]) =
      if SpecComplete hint then Except.ok ((specAt hint).1, (specAt hint).2 ++ [0])
      else .error .undefined := by
  have noNul' : 0 ∉ behindStar hint := fun mem => noNul ((behindStar_suffix hint).subset mem)
  have read := readWidth_eq noNul' (by decide : 0 < 2 ^ 31)
  change _ = if specWidth hint < 2 ^ 31 then Except.ok (specWidth hint, formatText hint ++ [0])
    else _ at read
  by_cases small : specWidth hint < 2 ^ 31
  · rw [if_pos small] at read
    rw [readFormat, read, specAt]
    cases format : formatText hint with
    | nil =>
        rw [if_neg fun complete => complete.1 format]
        rfl
    | cons code text =>
        rw [if_pos ⟨format ▸ List.cons_ne_nil _ _, small⟩]
        change (readLiteral (specWidth hint) (text ++ [0]) >>= _) = _
        rw [readLiteral_eq]
        change (readLiteral (specWidth hint) (_ ++ [0]) >>= _) = _
        rw [readLiteral_eq]
        rfl
  · rw [if_neg small] at read
    rw [readFormat, read, if_neg fun complete => small complete.2]
    rfl

theorem readRepeat_eq {cp : List Byte} (text : hint ≠ []) (left : cp ≠ []) :
    readRepeat (hint ++ [0]) cp =
      .ok ((repeatsAt hint cp).1, behindStar hint ++ [0], (repeatsAt hint cp).2) := by
  cases hint with
  | nil => exact absurd rfl text
  | cons h hint =>
      cases cp with
      | nil => exact absurd rfl left
      | cons c cp =>
          by_cases star : h = 0x2a
          · subst star
            rfl
          · have other : ¬ some h = some 0x2a := fun same => star (Option.some.inj same)
            rw [repeatsAt, behindStar, List.head?_cons, if_neg other, if_neg other]
            exact if_neg star

variable {print : HintPrint}

theorem readSpec_eq (noNul : 0 ∉ hint) (hint_eq : print.hint = hint ++ [0]) (text : hint ≠ [])
    (left : print.cp ≠ []) :
    print.readSpec = if SpecComplete hint then
      .ok ((repeatsAt hint print.cp).1,
        ⟨(specAt hint).1, (specAt hint).2 ++ [0], (repeatsAt hint print.cp).2, print.buf⟩)
      else .error .undefined := by
  have head : hintChar print.hint = .ok (hint.head text) := by
    rw [hint_eq]
    cases hint with
    | nil => exact absurd rfl text
    | cons h hint => rfl
  have nonzero : hint.head text ≠ 0 := fun zero => noNul (zero ▸ List.head_mem text)
  rw [HintPrint.readSpec, head]
  change (if hint.head text = 0 then _ else _) = _
  rw [if_neg nonzero, hint_eq, readRepeat_eq text left]
  change (readFormat (behindStar hint ++ [0]) >>= _) = _
  rw [readFormat_eq noNul]
  split
  · rfl
  · rfl

theorem readSpec_of_end (hint_eq : print.hint = [0]) : print.readSpec = .ok (1, print) := by
  rw [HintPrint.readSpec, hint_eq]
  rfl

variable {options : PrintOptions} {memory : PrintMemory} {start buf : PrintBuf}
  {savedHint : CString} {spec : HintSpec} {string : List Byte}

def Continues (start buf : PrintBuf) : Prop := ∃ string, buf.text = start.text ++ string

def LeavesInside (memory : PrintMemory) (reason : PrintExit) : Prop :=
  (reason = .noRoom ∧ ¬ memory.Unlimited) ∨ ∃ buf, reason = .badHint buf

theorem Continues.meets {printed : Except PrintExit PrintBuf} (continues : Continues start buf)
    (prints : PrintsSome memory buf printed) :
    Meets (Continues start) (fun reason => reason = .noRoom ∧ ¬ memory.Unlimited) printed := by
  rcases continues with ⟨string, text_eq⟩
  apply Meets.imp prints _ fun _ left => left
  rintro last ⟨string', text_eq'⟩
  exact ⟨string ++ string', by rw [text_eq', text_eq, List.append_assoc]⟩

theorem readNumber_left (width value : Nat) (cp : List Byte) :
    (readNumber width value cp).2 = cp.drop width := by
  induction width generalizing value cp with
  | zero => rfl
  | succ width ih =>
      cases cp with
      | nil => rfl
      | cons c cp => exact ih _ cp

theorem hexNumber_ok (spec : HintSpec) (hint : List Byte) (value : Nat) :
    ∃ number, hexNumber options spec (hint ++ [0]) value = .ok number := by
  rw [hexNumber]
  split
  · split
    · exact ⟨_, rfl⟩
    · split
      · cases hint with
        | nil => exact ⟨_, rfl⟩
        | cons h hint => exact ⟨_, rfl⟩
      · exact ⟨_, rfl⟩
  · exact ⟨_, rfl⟩

theorem printText_meets (width : Nat) (cp : List Byte) (buf : PrintBuf) :
    Meets (fun printed => printed.1 = cp.drop width ∧ Continues buf printed.2)
      (fun reason => reason = .noRoom ∧ ¬ memory.Unlimited) (printText memory width cp buf) := by
  have drop_eq : cp.drop (min width cp.length) = cp.drop width := by
    rcases Nat.le_total width cp.length with short | long
    · rw [Nat.min_eq_left short]
    · rw [Nat.min_eq_right long, List.drop_length, List.drop_of_length_le long]
  rw [printText, drop_eq]
  apply (memory.makeRoom_meets _ buf).bind
  rintro room ⟨text_eq, enough⟩
  have outLen_eq := @PrintBuf.outLen_eq buf [] room (by rw [text_eq, List.append_nil])
  rw [List.length_nil] at outLen_eq
  have continues : Continues buf room := ⟨[], by rw [text_eq, List.append_nil]⟩
  split
  · apply (continues.meets (memory.printsSome_asciistring _ room)).bind
    exact fun buf' goesOn => ⟨rfl, goesOn⟩
  · have length_eq : (cp.take (min width cp.length)).length = min width cp.length := by
      rw [List.length_take]
      omega
    rcases @PrintBuf.putAll_of_le room (cp.take (min width cp.length)) (by omega) with
      ⟨put, put_eq, put_text, put_length⟩
    have put_len := PrintBuf.outLen_eq put_text
    rcases @PrintBuf.putNul_of_lt put (by omega) with ⟨last, nul_eq, last_text, -⟩
    rw [put_eq]
    change Meets _ _ (put.putNul >>= _)
    rw [nul_eq]
    exact ⟨rfl, _, last_text.trans (put_text.trans (congrArg (· ++ _) text_eq))⟩

theorem printBadHint_meets (continues : Continues start buf) :
    Meets (Continues start) (fun reason => reason = .noRoom ∧ ¬ memory.Unlimited)
      (printBadHint memory start.outLen savedHint buf) := by
  rcases continues with ⟨string, text_eq⟩
  rcases PrintBuf.rewind_of_prefix text_eq with ⟨back, back_eq, back_text⟩
  have again : Continues start back := ⟨[], by rw [back_text, List.append_nil]⟩
  rw [printBadHint, back_eq]
  change Meets _ _ (memory.cstrcat _ back >>= _)
  apply (again.meets (memory.prints_cstrcat _ back).some).bind
  intro front goesOn
  apply (goesOn.meets (memory.prints_cstrcat _ front).some).bind
  intro middle goesOn'
  exact goesOn'.meets (memory.prints_cstrcat _ middle).some

theorem printFormat_meets (continues : Continues start buf) (cp : List Byte) :
    Meets (fun printed => printed.1 = cp.drop spec.width ∧ Continues start printed.2 ∧
        isFormat spec.code)
      (fun reason => (reason = .noRoom ∧ ¬ memory.Unlimited) ∨
        (∃ buf, reason = .badHint buf) ∧ ¬ isFormat spec.code)
      (printFormat options memory start.outLen savedHint spec (hint ++ [0]) cp buf) := by
  have noRoom (reason : PrintExit) (left : reason = .noRoom ∧ ¬ memory.Unlimited) :
      (reason = .noRoom ∧ ¬ memory.Unlimited) ∨
        (∃ buf, reason = .badHint buf) ∧ ¬ isFormat spec.code := .inl left
  have number (string : List Byte) (known : isFormat spec.code) :
      Meets (fun printed : List Byte × PrintBuf => printed.1 = cp.drop spec.width ∧
          Continues start printed.2 ∧ isFormat spec.code)
        (fun reason => (reason = .noRoom ∧ ¬ memory.Unlimited) ∨
          (∃ buf, reason = .badHint buf) ∧ ¬ isFormat spec.code)
        (do
          let buf ← memory.cstrcat string buf
          .ok ((readNumber spec.width 0 cp).2, buf)) := by
    apply Meets.bind ((continues.meets (memory.prints_cstrcat string buf).some).imp
      (fun _ goesOn => goesOn) noRoom)
    exact fun buf' goesOn => ⟨readNumber_left _ _ _, goesOn, known⟩
  rw [printFormat]
  split
  next isText =>
    apply (printText_meets spec.width cp buf).imp _ noRoom
    rintro ⟨left, buf'⟩ ⟨left_eq, string', text_eq'⟩
    rcases continues with ⟨string, text_eq⟩
    refine ⟨left_eq, ⟨string ++ string', ?_⟩, ?_⟩
    · rw [text_eq', text_eq, List.append_assoc]
    · rcases isText with isText | isText <;> rw [isText] <;> rfl
  next notText =>
    dsimp only
    split
    next isHex =>
      rcases hexNumber_ok spec hint (readNumber spec.width 0 cp).1 with ⟨string, string_eq⟩
      rw [string_eq]
      exact number string (isHex ▸ rfl)
    next notHex =>
      split
      next isDecimal => exact number _ (isDecimal ▸ rfl)
      next notDecimal =>
        split
        next isOctal => exact number _ (isOctal ▸ rfl)
        next notOctal =>
          have bad : ¬ isFormat spec.code := by
            simp_all [isFormat]
          apply Meets.bind ((printBadHint_meets continues).imp (fun _ goesOn => goesOn) noRoom)
          exact fun buf' _ => .inr ⟨⟨buf', rfl⟩, bad⟩

theorem printSeparator_meets (continues : Continues start buf) (separ : Byte) (cp : List Byte) :
    Meets (Continues start) (fun reason => reason = .noRoom ∧ ¬ memory.Unlimited)
      (printSeparator memory separ cp buf) := by
  rw [printSeparator]
  split
  · exact continues.meets (memory.prints_putSeparator separ buf).some
  · exact continues

theorem printRepeats_meets (continues : Continues start buf) (repeats : Nat) (cp : List Byte) :
    Meets (fun printed => printed.1 = cp.drop (repeats * spec.width) ∧ Continues start printed.2 ∧
        (isFormat spec.code ∨ repeats = 0 ∨ cp = []))
      (fun reason => (reason = .noRoom ∧ ¬ memory.Unlimited) ∨
        (∃ buf, reason = .badHint buf) ∧ ¬ (isFormat spec.code ∨ repeats = 0 ∨ cp = []))
      (printRepeats options memory start.outLen savedHint spec (hint ++ [0]) repeats cp buf) := by
  induction repeats generalizing cp buf with
  | zero =>
      refine ⟨?_, continues, .inr (.inl rfl)⟩
      rw [Nat.zero_mul]
      rfl
  | succ repeats ih =>
      rw [printRepeats]
      split
      next ended => exact ⟨by rw [ended, List.drop_nil], continues, .inr (.inr ended)⟩
      next left =>
        apply Meets.bind ((printFormat_meets continues cp).imp (fun _ printed => printed) _)
        · rintro ⟨cp', buf'⟩ ⟨left_eq, goesOn, known⟩
          apply Meets.bind ((printSeparator_meets goesOn spec.separ cp').imp
            (fun _ printed => printed) fun _ left => .inl left)
          intro last goesOn'
          apply (ih goesOn' cp').imp
          · rintro ⟨cp'', buf''⟩ ⟨left_eq', goesOn'', -⟩
            refine ⟨?_, goesOn'', .inl known⟩
            rw [left_eq']
            rw [show cp' = cp.drop spec.width from left_eq, List.drop_drop, Nat.succ_mul,
              Nat.add_comm]
          · rintro reason (noRoom | bad)
            · exact .inl noRoom
            · exact absurd (.inl known) bad.2
        · rintro reason (noRoom | bad)
          · exact .inl noRoom
          · refine .inr ⟨bad.1, ?_⟩
            rintro (known | none | ended)
            · exact bad.2 known
            · nomatch none
            · exact left ended

theorem printSeparators_meets (continues : Continues start buf) (separ : Byte) (isLast : Bool)
    (repeats : Nat) :
    Meets (Continues start) (fun reason => reason = .noRoom ∧ ¬ memory.Unlimited)
      (printSeparators memory separ isLast repeats buf) := by
  induction repeats generalizing buf with
  | zero => exact continues
  | succ repeats ih =>
      rw [printSeparators]
      split
      · exact continues
      · split
        · exact continues
        · exact (continues.meets (memory.prints_cstrcat _ buf).some).bind fun _ goesOn => ih goesOn

theorem printLiterals_meets (continues : Continues start buf) (isLast : Bool) (repeats : Nat) :
    Meets (Continues start) (fun reason => reason = .noRoom ∧ ¬ memory.Unlimited)
      (printLiterals memory spec isLast repeats buf) := by
  apply (printSeparators_meets continues spec.separ isLast repeats).bind
  intro buf' goesOn
  split
  · exact goesOn.meets (memory.prints_cstrcat _ buf').some
  · exact goesOn

inductive SpecPrinted (start : PrintBuf) (print : HintPrint) (repeats : Nat) :
    PrintBuf ⊕ HintPrint → Prop
  | ended {buf : PrintBuf} (continues : Continues start buf) (zero : print.spec.width = 0)
      (last : print.hint = [0]) : SpecPrinted start print repeats (.inl buf)
  | goesOn {cp : List Byte} {buf : PrintBuf} (continues : Continues start buf)
      (left_eq : cp = print.cp.drop (repeats * print.spec.width))
      (known : isFormat print.spec.code ∨ print.spec.width = 0 ∨ repeats = 0 ∨ print.cp = [])
      (more : print.spec.width = 0 → print.hint ≠ [0]) :
      SpecPrinted start print repeats (.inr ⟨print.spec, print.hint, cp, buf⟩)

theorem printSpec_meets (continues : Continues start print.buf) (noNul : 0 ∉ hint)
    (hint_eq : print.hint = hint ++ [0]) (repeats : Nat) :
    Meets (SpecPrinted start print repeats)
      (fun reason => (reason = .noRoom ∧ ¬ memory.Unlimited) ∨
        (∃ buf, reason = .badHint buf) ∧
          ¬ (isFormat print.spec.code ∨ print.spec.width = 0 ∨ repeats = 0 ∨ print.cp = []))
      (print.printSpec options memory start.outLen savedHint repeats) := by
  have noRoom (reason : PrintExit) (left : reason = .noRoom ∧ ¬ memory.Unlimited) :
      (reason = .noRoom ∧ ¬ memory.Unlimited) ∨
        (∃ buf, reason = .badHint buf) ∧
          ¬ (isFormat print.spec.code ∨ print.spec.width = 0 ∨ repeats = 0 ∨ print.cp = []) :=
    .inl left
  rw [HintPrint.printSpec]
  split
  next zero =>
    have head : ∃ h, hintChar print.hint = .ok h ∧ (h = 0 ↔ print.hint = [0]) := by
      rw [hint_eq]
      cases hint with
      | nil => exact ⟨0, rfl, iff_of_true rfl rfl⟩
      | cons h hint =>
          refine ⟨h, rfl, iff_of_false ?_ ?_⟩
          · exact fun zero => noNul (zero ▸ List.mem_cons_self)
          · intro short
            have lengths := congrArg List.length short
            simp at lengths
    rcases head with ⟨h, head_eq, last_iff⟩
    rw [head_eq]
    change Meets _ _ (printLiterals memory print.spec _ repeats print.buf >>= _)
    apply Meets.bind ((printLiterals_meets continues _ repeats).imp (fun _ goesOn => goesOn) noRoom)
    intro buf goesOn
    by_cases last : h = 0
    · change SpecPrinted start print repeats (if h = 0 then _ else _)
      rw [if_pos last]
      exact .ended goesOn zero (last_iff.mp last)
    · change SpecPrinted start print repeats (if h = 0 then _ else _)
      rw [if_neg last]
      refine .goesOn goesOn ?_ (.inr (.inl zero)) fun _ => (not_congr last_iff).mp last
      rw [zero, Nat.mul_zero]
      rfl
  next positive =>
    rw [hint_eq]
    apply Meets.bind ((printRepeats_meets continues repeats print.cp).imp
      (fun _ printed => printed) _)
    · rintro ⟨cp, buf⟩ ⟨left_eq, goesOn, known⟩
      apply Meets.bind ((printSeparator_meets goesOn print.spec.term cp).imp
        (fun _ printed => printed) noRoom)
      intro last goesOn'
      rw [← hint_eq]
      exact .goesOn goesOn' left_eq (known.imp_right .inr) fun zero => absurd zero positive
    · rintro reason (left | bad)
      · exact .inl left
      · exact .inr ⟨bad.1, fun known => bad.2 (known.imp_right fun zeroOr =>
          zeroOr.resolve_left positive)⟩

/-- What the printing of a value by the rest of a hint results in. -/
structure PrintEnds (memory : PrintMemory) (start : PrintBuf) (hint value : List Byte)
    (result : Except PrintExit PrintBuf) : Prop where
  inside : ¬ HintCutShort hint value → Meets (Continues start) (LeavesInside memory) result
  stray : memory.Unlimited → HintCutShort hint value → result = .error .undefined

theorem pass_eq {repeats : Nat} {next : HintPrint} (left : print.cp ≠ [])
    (read : print.readSpec = .ok (repeats, next)) (call : Nat) :
    print.pass options memory start.outLen savedHint call =
      match next.printSpec options memory start.outLen savedHint repeats with
      | .error reason => .inl (.error reason)
      | .ok (.inl buf) => .inl (.ok buf)
      | .ok (.inr print) => .inr print := by
  rw [HintPrint.pass, if_neg left, read]
  rfl

theorem not_hintCutShort_nil (value : List Byte) : ¬ HintCutShort [] value := by
  intro cutShort
  cases cutShort with
  | here text _ _ => exact text rfl
  | behind text _ _ _ _ => exact text rfl

theorem print_ends_of_spec {repeats : Nat} {next : HintPrint} {rest : List Byte}
    (left : print.cp ≠ []) (read : print.readSpec = .ok (repeats, next))
    (continues : Continues start next.buf) (noNul : 0 ∉ rest) (hint_eq : next.hint = rest ++ [0])
    (cut_iff : HintCutShort hint print.cp ↔
      (isFormat next.spec.code ∨ next.spec.width = 0 ∨ repeats = 0 ∨ next.cp = []) ∧
        HintCutShort rest (next.cp.drop (repeats * next.spec.width)))
    (behind : ∀ buf, Continues start buf → (next.spec.width = 0 → next.hint ≠ [0]) →
      ∃ result, (∀ call, PassesEnd (HintPrint.pass options memory start.outLen savedHint) call
          ⟨next.spec, next.hint, next.cp.drop (repeats * next.spec.width), buf⟩ result) ∧
        PrintEnds memory start rest (next.cp.drop (repeats * next.spec.width)) result) :
    ∃ result, (∀ call, PassesEnd (HintPrint.pass options memory start.outLen savedHint) call print
      result) ∧ PrintEnds memory start hint print.cp result := by
  have passed := @pass_eq print options memory start savedHint repeats next left read
  have meets := @printSpec_meets rest next options memory start savedHint continues noNul hint_eq
    repeats
  cases printed : next.printSpec options memory start.outLen savedHint repeats with
  | error reason =>
      rw [printed] at meets passed
      refine ⟨.error reason, fun call => passesEnd_of_last (passed call), fun _ => ?_, ?_⟩
      · exact Or.imp_right And.left meets
      · intro unlimited cutShort
        rcases meets with noRoom | bad
        · exact absurd unlimited noRoom.2
        · exact absurd (cut_iff.mp cutShort).1 bad.2
  | ok state =>
      rw [printed] at meets passed
      change SpecPrinted start next repeats state at meets
      cases meets with
      | @ended buf goesOn zero last =>
          refine ⟨.ok buf, fun call => passesEnd_of_last (passed call), fun _ => goesOn, ?_⟩
          intro _ cutShort
          have rest_eq : rest = [] := by
            rw [hint_eq] at last
            exact List.append_left_eq_self.mp last
          subst rest_eq
          exact absurd (cut_iff.mp cutShort).2 (not_hintCutShort_nil _)
      | @goesOn cp buf goesOn left_eq known more =>
          subst left_eq
          rcases behind buf goesOn more with ⟨result, ends, printEnds⟩
          refine ⟨result, fun call => (passesEnd_iff_next (passed call)).mpr (ends _), ?_, ?_⟩
          · exact fun whole => printEnds.inside fun cutBehind => whole (cut_iff.mpr ⟨known, cutBehind⟩)
          · exact fun unlimited cutShort => printEnds.stray unlimited (cut_iff.mp cutShort).2

theorem print_ends (continues : Continues start print.buf) (noNul : 0 ∉ hint)
    (hint_eq : print.hint = hint ++ [0]) :
    ∃ result, (∀ call, PassesEnd (HintPrint.pass options memory start.outLen savedHint) call print
      result) ∧ PrintEnds memory start hint print.cp result := by
  induction size : hint.length + print.cp.length using Nat.strongRecOn generalizing hint print with
  | ind size ih =>
      subst size
      by_cases left : print.cp = []
      · refine ⟨.ok print.buf, fun call => passesEnd_of_last (if_pos left), fun _ => continues, ?_⟩
        intro _ cutShort
        cases cutShort with
        | here _ more _ => exact absurd left more
        | behind _ more _ _ _ => exact absurd left more
      · by_cases text : hint = []
        · subst text
          apply print_ends_of_spec left (readSpec_of_end hint_eq) continues noNul hint_eq
          · apply iff_of_false (not_hintCutShort_nil _)
            exact fun both => not_hintCutShort_nil _ both.2
          · intro buf goesOn more
            -- the last specification takes octets
            have positive : print.spec.width ≠ 0 := fun zero => more zero hint_eq
            apply @ih _ _ [] ⟨_, _, _, buf⟩ goesOn noNul hint_eq rfl
            have octets := List.length_pos_of_ne_nil left
            simp only [List.length_drop]
            omega
        · by_cases complete : SpecComplete hint
          · rcases complete.behind with ⟨suffix, shorter⟩
            have noNul' : 0 ∉ (specAt hint).2 := fun mem => noNul (suffix.subset mem)
            have read := readSpec_eq noNul hint_eq text left
            rw [if_pos complete] at read
            apply print_ends_of_spec left read continues noNul' rfl
            · constructor
              · intro cutShort
                cases cutShort with
                | here _ _ cut => exact absurd complete cut
                | behind _ _ _ goesOn cutBehind => exact ⟨goesOn, cutBehind⟩
              · rintro ⟨goesOn, cutBehind⟩
                exact .behind text left complete goesOn cutBehind
            · intro buf goesOn more
              apply @ih _ _ (specAt hint).2 ⟨_, _, _, buf⟩ goesOn noNul' rfl rfl
              have fewer : (repeatsAt hint print.cp).2.length ≤ print.cp.length := by
                rw [repeatsAt]
                split
                · exact (List.tail_suffix _).length_le
                · exact Nat.le_refl _
              simp only [List.length_drop]
              omega
          · have read := readSpec_eq noNul hint_eq text left
            rw [if_neg complete] at read
            refine ⟨.error .undefined, fun call => passesEnd_of_last ?_, ?_, fun _ _ => rfl⟩
            · rw [HintPrint.pass, if_neg left, read]
              rfl
            · exact fun whole => absurd (.here text left complete) whole

def PrintsInside (options : PrintOptions) (memory : PrintMemory) (hint : CString)
    (value : List Byte) (units : Option CString) (buf : PrintBuf) : Prop :=
  ∃ result, Settles (fun fuel => sprintReallocOctetString fuel options memory hint value units buf)
    result ∧ result ≠ .error .undefined

theorem finishPrint_meets (units : Option CString) (continues : Continues start buf) :
    Meets (Continues start) (fun reason => reason = .noRoom ∧ ¬ memory.Unlimited)
      (finishPrint memory units buf) := by
  cases units with
  | none =>
      apply continues.meets
      apply (memory.end_meets buf).imp _ fun _ left => left
      exact fun buf' ended => ⟨[], by rw [ended.1, List.append_nil]⟩
  | some units =>
      apply continues.meets
      apply (memory.prints_cstrcat [0x20] buf).some.bind
      exact fun buf' => (memory.prints_cstrcat units.chars buf').some

theorem startPrint_meets (options : PrintOptions) (buf : PrintBuf) :
    Meets (Continues buf) (fun reason => reason = .noRoom ∧ ¬ memory.Unlimited)
      (if options.quickPrint then .ok buf else memory.cstrcat "STRING: ".toUTF8.toList buf) := by
  split
  · exact ⟨[], (List.append_nil _).symm⟩
  · exact (memory.prints_cstrcat _ buf).some

theorem sprintReallocOctetString_ends (options : PrintOptions) (memory : PrintMemory)
    (hint : CString) (value : List Byte) (units : Option CString) (buf : PrintBuf) :
    ∃ result, Settles (fun fuel =>
        sprintReallocOctetString fuel options memory hint value units buf) result ∧
      PrintEnds memory buf hint.chars value result := by
  have meets := @startPrint_meets memory options buf
  cases started : (if options.quickPrint then .ok buf
      else memory.cstrcat "STRING: ".toUTF8.toList buf : Except PrintExit PrintBuf) with
  | error reason =>
      rw [started] at meets
      refine ⟨.error reason, ⟨0, fun fuel _ => ?_⟩, fun _ => .inl meets, fun unlimited _ => ?_⟩
      · simp only [sprintReallocOctetString, started]
      · exact absurd unlimited meets.2
  | ok start =>
      rw [started] at meets
      rcases @print_ends hint.chars ⟨{}, hint.chars ++ [0], value, start⟩ options memory buf hint
        meets hint.noNul rfl with ⟨result, ends, printEnds⟩
      refine ⟨result >>= finishPrint memory units, ?_, ?_, ?_⟩
      · have mapped := Settles.map (ends 0) fun printed => printed >>= finishPrint memory units
        simpa only [sprintReallocOctetString, started] using mapped
      · intro whole
        apply (printEnds.inside whole).bind
        intro last goesOn
        exact (finishPrint_meets units goesOn).imp (fun _ continues => continues) fun _ => .inl
      · intro unlimited cutShort
        rw [printEnds.stray unlimited cutShort]
        rfl

/-- A hint prints a value without a stray access, whatever the buffer and the memory are, exactly if
the printer comes to no specification that is cut short. -/
theorem sprintReallocOctetString_inside_iff (hint : CString) (value : List Byte) :
    (∀ options memory units buf, PrintsInside options memory hint value units buf) ↔
      ¬ HintCutShort hint.chars value := by
  constructor
  · intro inside cutShort
    let memory : PrintMemory := ⟨true, fun _ => true⟩
    rcases inside ⟨true, true⟩ memory none ⟨[], 0, Nat.le_refl 0⟩ with ⟨result, settled, notStray⟩
    rcases sprintReallocOctetString_ends ⟨true, true⟩ memory hint value none ⟨[], 0, Nat.le_refl 0⟩
      with ⟨result', settled', printEnds⟩
    rw [settled.unique settled'] at notStray
    exact notStray (printEnds.stray ⟨rfl, fun _ => rfl⟩ cutShort)
  · intro whole options memory units buf
    rcases sprintReallocOctetString_ends options memory hint value units buf with
      ⟨result, settled, printEnds⟩
    refine ⟨result, settled, ?_⟩
    rintro rfl
    rcases printEnds.inside whole with noRoom | ⟨_, bad⟩
    · nomatch noRoom.1
    · nomatch bad

theorem not_sprintReallocOctetString_inside :
    ¬ ∀ hint value options memory units buf,
      PrintsInside options memory hint value units buf := by
  intro inside
  have one := (sprintReallocOctetString_inside_iff ⟨[0x31], by decide⟩ [0x05]).mp
    (inside ⟨[0x31], by decide⟩ [0x05])
  exact one (.here (List.cons_ne_nil _ _) (List.cons_ne_nil _ _) (by decide))

end NetSnmp
