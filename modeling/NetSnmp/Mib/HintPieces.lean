import NetSnmp.Mib.OctetHint

/-!
# What a record of a hint takes

A record takes one piece of the value, or pieces up to its terminator or to the end of the
value if it repeats. A record that is idle takes nothing.
-/

namespace NetSnmp

theorem strtolSign_suffix (text : List Byte) : (strtolSign text).2 <:+ text := by
  unfold strtolSign
  split
  · exact List.suffix_cons _ _
  · exact List.suffix_cons _ _
  · exact List.suffix_refl _

theorem strtolPrefix_suffix (base : Nat) (text : List Byte) : strtolPrefix base text <:+ text := by
  unfold strtolPrefix
  split
  · split
    · exact (List.suffix_cons _ _).trans (List.suffix_cons _ _)
    · exact List.suffix_refl _
  · exact List.suffix_refl _

theorem strtolEnd_shorter {base : Nat} {text rest : List Byte} {number : Int}
    (parsed : strtolEnd base text = some (number, rest)) :
    rest <:+ text ∧ rest.length < text.length := by
  let digits := strtolPrefix base (strtolSign (text.dropWhile isspace)).2
  let word := digits.takeWhile fun c => (digitValue base c).isSome
  have inside : digits <:+ text :=
    (strtolPrefix_suffix base _).trans
      ((strtolSign_suffix _).trans (List.dropWhile_suffix _))
  have unfolded : strtolEnd base text = if word = [] then none else
      some (_, digits.drop word.length) := rfl
  by_cases empty : word = []
  · rw [unfolded, if_pos empty] at parsed
    nomatch parsed
  · rw [unfolded, if_neg empty] at parsed
    have rest_eq : digits.drop word.length = rest :=
      congrArg Prod.snd (Option.some.inj parsed)
    have taken : 0 < word.length := List.length_pos_iff.mpr empty
    have fits : word.length ≤ digits.length :=
      (List.takeWhile_prefix _).length_le
    have fits' := inside.length_le
    subst rest
    refine ⟨(List.drop_suffix _ _).trans inside, ?_⟩
    rw [List.length_drop]
    omega

namespace ParseHints

variable {ph : ParseHints} {v octets rest : List Byte} {pieces : List (List Byte)}

def Idle (ph : ParseHints) : Prop :=
  formatBase ph.format = none ∧ (ph.format = 0x61 → ph.length ≤ 0) ∧ ph.separator = 0

instance : Decidable ph.Idle := inferInstanceAs (Decidable (_ ∧ _))

def Piece (ph : ParseHints) (v octets rest : List Byte) : Prop :=
  ∃ behind, ph.takeFormat v = some (octets, behind) ∧ ph.skipSeparator behind = some rest

def AtTerminator (ph : ParseHints) (v : List Byte) : Prop :=
  ph.terminator ≠ 0 ∧ v.head? = some ph.terminator

instance : Decidable (ph.AtTerminator v) := inferInstanceAs (Decidable (_ ∧ _))

theorem takeFormat_suffix {behind : List Byte}
    (taken : ph.takeFormat v = some (octets, behind)) : behind <:+ v := by
  unfold takeFormat at taken
  split at taken
  · rcases Option.map_eq_some_iff.mp taken with ⟨⟨number, rest⟩, parsed, pair⟩
    cases pair
    exact (strtolEnd_shorter parsed).1
  · split at taken
    · cases taken
      exact List.drop_suffix _ _
    · cases taken
      exact List.suffix_refl _

theorem skipSeparator_suffix {behind : List Byte}
    (skipped : ph.skipSeparator behind = some rest) : rest <:+ behind := by
  unfold skipSeparator at skipped
  split at skipped
  · cases skipped
    exact List.suffix_refl _
  · split at skipped
    · cases skipped
      exact List.suffix_refl _
    · split at skipped
      · cases skipped
        exact List.suffix_cons _ _
      · nomatch skipped

theorem Piece.suffix (piece : ph.Piece v octets rest) : rest <:+ v := by
  rcases piece with ⟨behind, taken, skipped⟩
  exact (skipSeparator_suffix skipped).trans (takeFormat_suffix taken)

theorem takeFormat_shorter {behind : List Byte} (left : v ≠ [])
    (takes : formatBase ph.format ≠ none ∨ (ph.format = 0x61 ∧ 0 < ph.length))
    (taken : ph.takeFormat v = some (octets, behind)) : behind.length < v.length := by
  unfold takeFormat at taken
  split at taken
  · rcases Option.map_eq_some_iff.mp taken with ⟨⟨number, rest⟩, parsed, pair⟩
    cases pair
    exact (strtolEnd_shorter parsed).2
  next noBase =>
    rcases takes with hasBase | ⟨isText, width⟩
    · exact absurd noBase hasBase
    · rw [if_pos isText] at taken
      cases taken
      have some_left := List.length_pos_iff.mpr left
      rw [List.length_drop]
      omega

theorem skipSeparator_shorter {behind : List Byte} (left : behind ≠ [])
    (separator : ph.separator ≠ 0)
    (skipped : ph.skipSeparator behind = some rest) : rest.length < behind.length := by
  unfold skipSeparator at skipped
  rw [if_neg separator] at skipped
  cases behind with
  | nil => exact absurd rfl left
  | cons c behind =>
      simp only at skipped
      split at skipped
      · cases skipped
        exact Nat.lt_succ_self _
      · nomatch skipped

theorem Piece.shorter (advances : ¬ ph.Idle) (left : v ≠ [])
    (piece : ph.Piece v octets rest) : rest.length < v.length := by
  rcases piece with ⟨behind, taken, skipped⟩
  have within := (skipSeparator_suffix skipped).length_le
  by_cases takes : formatBase ph.format ≠ none ∨ (ph.format = 0x61 ∧ 0 < ph.length)
  · have shorter := takeFormat_shorter left takes taken
    omega
  · -- the format takes nothing, so that the separator does
    simp only [not_or, not_not, not_and, Int.not_lt] at takes
    have separator : ph.separator ≠ 0 := fun none => advances ⟨takes.1, takes.2, none⟩
    have within' := (takeFormat_suffix taken).length_le
    by_cases ended : behind = []
    · subst behind
      have some_left := List.length_pos_iff.mpr left
      rw [List.length_nil] at within
      omega
    · have shorter := skipSeparator_shorter ended separator skipped
      omega

theorem Idle.piece (idle : ph.Idle) (v : List Byte) : ph.Piece v [] v := by
  rcases idle with ⟨noBase, noText, noSeparator⟩
  refine ⟨v, ?_, if_pos noSeparator⟩
  rw [takeFormat, noBase]
  by_cases isText : ph.format = 0x61
  · simp [isText, Int.toNat_eq_zero.mpr (noText isText)]
  · exact if_neg isText

theorem pass_of_piece (call : Nat) (acc : List Byte) (repeats : Nat)
    (piece : ph.Piece v octets rest) :
    ph.pass call ⟨acc, v, repeats⟩ =
      if ph.AtTerminator rest then .inl (some ⟨acc ++ octets, rest.tail, repeats + 1⟩)
      else if ph.isRepeat ∧ rest ≠ [] then .inr ⟨acc ++ octets, rest, repeats + 1⟩
      else .inl (some ⟨acc ++ octets, rest, repeats + 1⟩) := by
  rcases piece with ⟨behind, taken, skipped⟩
  simp only [pass, taken, skipped]
  rfl

theorem pass_of_no_piece (call : Nat) (acc : List Byte) (repeats : Nat)
    (noPiece : ∀ octets rest, ¬ ph.Piece v octets rest) :
    ph.pass call ⟨acc, v, repeats⟩ = .inl none := by
  simp only [pass]
  split
  · rfl
  next octets behind taken =>
    split
    · rfl
    next rest skipped => exact absurd ⟨behind, taken, skipped⟩ (noPiece octets rest)

/-- The pieces that a record takes of a value, and what it leaves. -/
inductive Takes (ph : ParseHints) : List Byte → List (List Byte) → List Byte → Prop
  | terminated {v octets rest : List Byte} (piece : ph.Piece v octets rest)
      (atEnd : ph.AtTerminator rest) : Takes ph v [octets] rest.tail
  | last {v octets rest : List Byte} (piece : ph.Piece v octets rest)
      (goesOn : ¬ ph.AtTerminator rest) (isLast : ph.isRepeat → rest = []) :
      Takes ph v [octets] rest
  | more {v octets next rest : List Byte} {pieces : List (List Byte)}
      (piece : ph.Piece v octets next) (goesOn : ¬ ph.AtTerminator next)
      (again : ph.isRepeat) (left : next ≠ []) (behind : Takes ph next pieces rest) :
      Takes ph v (octets :: pieces) rest

def encode (ph : ParseHints) (pieces : List (List Byte)) : List Byte :=
  if ph.isRepeat then UInt8.ofNat pieces.length :: pieces.flatten else pieces.flatten

theorem Takes.suffix (takes : ph.Takes v pieces rest) : rest <:+ v := by
  induction takes with
  | terminated piece _ => exact (List.tail_suffix _).trans piece.suffix
  | last piece _ _ => exact piece.suffix
  | more piece _ _ _ _ ih => exact ih.trans piece.suffix

theorem Takes.shorter (advances : ¬ ph.Idle) (left : v ≠ [])
    (takes : ph.Takes v pieces rest) : rest.length < v.length := by
  induction takes with
  | terminated piece _ =>
      exact Nat.lt_of_le_of_lt (List.tail_suffix _).length_le (piece.shorter advances left)
  | last piece _ _ => exact piece.shorter advances left
  | more piece _ _ left' _ ih => exact (ih left').trans (piece.shorter advances left)

theorem Takes.passesEnd (takes : ph.Takes v pieces rest) (call : Nat) (acc : List Byte)
    (repeats : Nat) :
    PassesEnd ph.pass call ⟨acc, v, repeats⟩
      (some ⟨acc ++ pieces.flatten, rest, repeats + pieces.length⟩) := by
  induction takes generalizing call acc repeats with
  | terminated piece atEnd =>
      apply passesEnd_of_last
      rw [pass_of_piece call acc repeats piece, if_pos atEnd]
      simp
  | @last v octets rest piece goesOn isLast =>
      apply passesEnd_of_last
      have ended : ¬ (ph.isRepeat ∧ rest ≠ []) := fun again => again.2 (isLast again.1)
      rw [pass_of_piece call acc repeats piece, if_neg goesOn, if_neg ended]
      simp
  | @more v octets next rest pieces piece goesOn again left _ ih =>
      have passed := pass_of_piece call acc repeats piece
      rw [if_neg goesOn, if_pos ⟨again, left⟩] at passed
      rw [passesEnd_iff_next passed]
      have behind := ih (call + 1) (acc ++ octets) (repeats + 1)
      simpa [Nat.add_assoc, Nat.add_comm 1] using behind

def Fails (ph : ParseHints) (v : List Byte) : Prop :=
  ∀ call acc repeats, PassesEnd ph.pass call ⟨acc, v, repeats⟩ none

theorem takes_or_fails_of_advances (advances : ¬ ph.Idle) (left : v ≠ []) :
    (∃ pieces rest, ph.Takes v pieces rest) ∨ ph.Fails v := by
  induction size : v.length using Nat.strongRecOn generalizing v with
  | ind size ih =>
      by_cases noPiece : ∀ octets rest, ¬ ph.Piece v octets rest
      · exact .inr fun call acc repeats =>
          passesEnd_of_last (pass_of_no_piece call acc repeats noPiece)
      · simp only [not_forall, not_not] at noPiece
        rcases noPiece with ⟨octets, next, piece⟩
        by_cases atEnd : ph.AtTerminator next
        · exact .inl ⟨_, _, .terminated piece atEnd⟩
        · by_cases again : ph.isRepeat ∧ next ≠ []
          · have shorter := piece.shorter advances left
            rcases ih next.length (size ▸ shorter) again.2 rfl with ⟨pieces, rest, takes⟩ | fails
            · exact .inl ⟨_, _, .more piece atEnd again.1 again.2 takes⟩
            · refine .inr fun call acc repeats => ?_
              have goesOn := pass_of_piece call acc repeats piece
              rw [if_neg atEnd, if_pos again] at goesOn
              exact (passesEnd_iff_next goesOn).mpr (fails _ _ _)
          · exact .inl ⟨_, _, .last piece atEnd fun repeats =>
              not_not.mp fun left' => again ⟨repeats, left'⟩⟩

theorem Idle.takes (idle : ph.Idle) (once : ¬ ph.isRepeat) (noTerminator : ph.terminator = 0)
    (v : List Byte) : ph.Takes v [[]] v :=
  .last (idle.piece v) (fun atEnd => atEnd.1 noTerminator) fun again => absurd again once

theorem Idle.repeatPasses_eq_none (idle : ph.Idle) (again : ph.isRepeat)
    (noTerminator : ph.terminator = 0) (left : v ≠ []) (fuel call : Nat) (acc : List Byte)
    (repeats : Nat) : repeatPasses ph.pass fuel call ⟨acc, v, repeats⟩ = none := by
  have keeps (call : Nat) (loop : HintLoop) (left : loop.v ≠ []) :
      ∃ next, ph.pass call loop = .inr next ∧ next.v ≠ [] := by
    have goesOn := pass_of_piece call loop.octets loop.repeats (idle.piece loop.v)
    rw [if_neg fun atEnd => atEnd.1 noTerminator, if_pos ⟨again, left⟩] at goesOn
    exact ⟨_, goesOn, left⟩
  exact NetSnmp.repeatPasses_eq_none keeps left fuel

theorem takes_or_fails (ends : ph.Idle → ¬ ph.isRepeat ∧ ph.terminator = 0) (left : v ≠ []) :
    (∃ pieces rest, ph.Takes v pieces rest) ∨ ph.Fails v := by
  by_cases idle : ph.Idle
  · rcases ends idle with ⟨once, noTerminator⟩
    exact .inl ⟨_, _, idle.takes once noTerminator v⟩
  · exact takes_or_fails_of_advances idle left

end ParseHints

section ParseHintsParse

variable {ph : ParseHints} {v octets rest : List Byte} {pieces : List (List Byte)} {fuel : Nat}

theorem parseHintsParse_of_takes (takes : ph.Takes v pieces rest) :
    Settles (fun fuel => parseHintsParse fuel ph v) (some (ph.encode pieces, rest)) := by
  have ends := takes.passesEnd 0 (if ph.isRepeat then [0] else []) 0
  have mapped := Settles.map ends fun ended => ended.map fun loop =>
    (if ph.isRepeat then loop.octets.set 0 (UInt8.ofNat loop.repeats) else loop.octets, loop.v)
  by_cases again : ph.isRepeat
  · simpa [parseHintsParse, ParseHints.encode, again] using mapped
  · simpa [parseHintsParse, ParseHints.encode, again] using mapped

theorem parseHintsParse_of_fails (fails : ph.Fails v) :
    Settles (fun fuel => parseHintsParse fuel ph v) none :=
  Settles.map (fails 0 _ 0) fun ended => ended.map _

theorem parseHintsParse_of_idle (idle : ph.Idle) (again : ph.isRepeat)
    (noTerminator : ph.terminator = 0) (left : v ≠ []) : parseHintsParse fuel ph v = none := by
  rw [parseHintsParse, idle.repeatPasses_eq_none again noTerminator left]
  rfl

theorem settles_parseHintsParse {ended : Option (List Byte × List Byte)}
    (returns : parseHintsParse fuel ph v = some ended) :
    Settles (fun fuel => parseHintsParse fuel ph v) ended := by
  rcases Option.map_eq_some_iff.mp returns with ⟨loop, passed, rfl⟩
  exact Settles.map (passesEnd_of_repeatPasses passed) _

theorem takes_of_parseHintsParse (ends : ph.Idle → ¬ ph.isRepeat ∧ ph.terminator = 0)
    (left : v ≠ []) (returns : parseHintsParse fuel ph v = some (some (octets, rest))) :
    ∃ pieces, ph.Takes v pieces rest ∧ octets = ph.encode pieces := by
  have settled := settles_parseHintsParse returns
  rcases ph.takes_or_fails ends left with ⟨pieces, rest', takes⟩ | fails
  · have same := settled.unique (parseHintsParse_of_takes takes)
    cases same
    exact ⟨pieces, takes, rfl⟩
  · nomatch settled.unique (parseHintsParse_of_fails fails)

end ParseHintsParse

end NetSnmp
