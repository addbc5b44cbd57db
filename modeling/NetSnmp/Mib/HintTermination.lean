import NetSnmp.Mib.HintPieces

/-!
# Values that a display hint reads to their end

The text of the hint decides its records; the records are then applied to the value, the last
one again and again. A value is read to its end or to an offending position unless it comes
to an idle record in front of which nothing stops it.
-/

namespace NetSnmp

/-- The records that the text of a hint ends, and the one that is left at its end, unless the
hint is refused there. -/
structure HintRecords where
  ended : List ParseHints
  last : Option ParseHints
  deriving DecidableEq, Repr

def HintRecords.behind (ph : ParseHints) (records : HintRecords) : HintRecords :=
  ⟨ph :: records.ended, records.last⟩

/-- The records that the loop over the hint fills, whatever the value is. -/
def hintRecords (state : HintState) (ph : ParseHints) (hint : List Byte) : HintRecords :=
  match hint with
  | [] => ⟨[], some ph⟩
  | h :: hint =>
      match state with
      | .hint12 =>
          if h = 0x2a then hintRecords .hint23 { ph with isRepeat := true } hint
          else if isdigit h then hintRecords .hint23 (ph.lengthAddDigit h) hint
          else ⟨[], none⟩
      | .hint23 =>
          if isdigit h then hintRecords .hint23 (ph.lengthAddDigit h) hint
          else if h = 0x78 ∨ h = 0x64 ∨ h = 0x6f ∨ h = 0x61 then
            hintRecords .hint124 { ph with format := h } hint
          else ⟨[], none⟩
      | .hint124 =>
          if h = 0x2a then (hintRecords .hint23 { isRepeat := true } hint).behind ph
          else if isdigit h then
            (hintRecords .hint23 (ParseHints.lengthAddDigit {} h) hint).behind ph
          else hintRecords .hint125 { ph with separator := h } hint
      | .hint125 =>
          if h = 0x2a then (hintRecords .hint23 { isRepeat := true } hint).behind ph
          else if isdigit h then
            (hintRecords .hint23 (ParseHints.lengthAddDigit {} h) hint).behind ph
          else (hintRecords .hint12 {} hint).behind { ph with terminator := h }

def ParseHints.SeparatorFirst (ph : ParseHints) : Prop := ph.Idle → ph.terminator = 0

theorem ParseHints.separatorFirst {ph : ParseHints} (noTerminator : ph.terminator = 0) :
    ph.SeparatorFirst := fun _ => noTerminator

/-- The records of a hint are made of its nonzero characters. -/
structure HintRecords.WellFormed (records : HintRecords) : Prop where
  ended : ∀ ph ∈ records.ended, ph.SeparatorFirst
  last : ∀ ph ∈ records.last, ph.SeparatorFirst

theorem HintRecords.WellFormed.behind {ph : ParseHints} {records : HintRecords}
    (wellFormed : records.WellFormed) (first : ph.SeparatorFirst) :
    (records.behind ph).WellFormed :=
  ⟨List.forall_mem_cons.mpr ⟨first, wellFormed.ended⟩, wellFormed.last⟩

theorem HintRecords.WellFormed.tail {ph : ParseHints} {records : List ParseHints}
    {last : Option ParseHints} (wellFormed : HintRecords.WellFormed ⟨ph :: records, last⟩) :
    HintRecords.WellFormed ⟨records, last⟩ :=
  ⟨fun ph mem => wellFormed.ended ph (List.mem_cons_of_mem _ mem), wellFormed.last⟩

theorem HintRecords.wellFormed_refused : HintRecords.WellFormed ⟨[], none⟩ :=
  ⟨fun _ mem => absurd mem List.not_mem_nil, fun _ mem => nomatch mem⟩

theorem hintRecords_wellFormed (state : HintState) (ph : ParseHints) (hint : List Byte)
    (noTerminator : ph.terminator = 0) (separated : state = .hint125 → ph.separator ≠ 0)
    (noNul : 0 ∉ hint) : (hintRecords state ph hint).WellFormed := by
  induction hint generalizing state ph with
  | nil =>
      refine ⟨fun _ mem => absurd mem List.not_mem_nil, fun last mem => ?_⟩
      cases mem
      exact ParseHints.separatorFirst noTerminator
  | cons h hint ih =>
      simp only [List.mem_cons, not_or] at noNul
      have first := ParseHints.separatorFirst noTerminator
      have again : (hintRecords .hint23 { isRepeat := true } hint).WellFormed :=
        ih _ _ rfl nofun noNul.2
      have digit : (hintRecords .hint23 (ParseHints.lengthAddDigit {} h) hint).WellFormed :=
        ih _ _ rfl nofun noNul.2
      cases state with
      | hint12 =>
          rw [hintRecords]
          split
          · exact ih _ _ noTerminator nofun noNul.2
          · split
            · exact ih _ _ noTerminator nofun noNul.2
            · exact HintRecords.wellFormed_refused
      | hint23 =>
          rw [hintRecords]
          split
          · exact ih _ _ noTerminator nofun noNul.2
          · split
            · exact ih _ _ noTerminator nofun noNul.2
            · exact HintRecords.wellFormed_refused
      | hint124 =>
          rw [hintRecords]
          split
          · exact again.behind first
          · split
            · exact digit.behind first
            · exact ih _ _ noTerminator (fun _ => Ne.symm noNul.1) noNul.2
      | hint125 =>
          rw [hintRecords]
          split
          · exact again.behind first
          · split
            · exact digit.behind first
            · have next : (hintRecords .hint12 {} hint).WellFormed := ih _ _ rfl nofun noNul.2
              exact next.behind fun idle => absurd idle.2.2 (separated rfl)

/-- The records are applied to the value one after the other, the last one again and again. -/
def applyRecords (fuel : Nat) (last : Option ParseHints) (records : List ParseHints)
    (result v : List Byte) : Option HintReturn :=
  match records with
  | [] =>
      match last with
      | none => if v = [] then some (.parsed result) else some (.offending v)
      | some ph => finalLoop fuel fuel ph result v
  | ph :: records =>
      if v = [] then some (.parsed result)
      else
        match parseHintsParse fuel ph v with
        | none => none
        | some none => some (.offending v)
        | some (some (octets, v)) => applyRecords fuel last records (result ++ octets) v

theorem applyRecords_nil (fuel : Nat) (last : Option ParseHints) (records : List ParseHints)
    (result : List Byte) :
    applyRecords (fuel + 1) last records result [] = some (.parsed result) := by
  cases records with
  | nil =>
      cases last with
      | none => rfl
      | some ph => rfl
  | cons ph records => rfl

theorem endRecord_finish {fuel : Nat} {ph : ParseHints} {records : HintRecords}
    {result v : List Byte} {next : List Byte → List Byte → Option HintStop} (left : v ≠ [])
    (behind : ∀ result v, (next result v).bind (HintStop.finish fuel) =
      applyRecords fuel records.last records.ended result v) :
    (endRecord fuel ph result v next).bind (HintStop.finish fuel) =
      applyRecords fuel (records.behind ph).last (records.behind ph).ended result v := by
  change _ = applyRecords fuel records.last (ph :: records.ended) result v
  rw [applyRecords, if_neg left, endRecord]
  cases parseHintsParse fuel ph v with
  | none => rfl
  | some ended =>
      cases ended with
      | none => rfl
      | some taken => exact behind _ _

theorem readHint_finish (fuel : Nat) (state : HintState) (ph : ParseHints)
    (result hint v : List Byte) :
    (readHint (fuel + 1) state ph result hint v).bind (HintStop.finish (fuel + 1)) =
      applyRecords (fuel + 1) (hintRecords state ph hint).last (hintRecords state ph hint).ended
        result v := by
  induction hint generalizing state ph result v with
  | nil => rfl
  | cons h hint ih =>
      by_cases left : v = []
      · subst v
        rw [applyRecords_nil]
        cases state <;> rfl
      · have refused (records : HintRecords) (empty : records = ⟨[], none⟩) :
            (some (HintStop.refused v)).bind (HintStop.finish (fuel + 1)) =
              applyRecords (fuel + 1) records.last records.ended result v := by
          subst empty
          exact (if_neg left).symm
        cases state with
        | hint12 =>
            simp only [readHint, if_neg left, hintRecords]
            split
            · exact ih _ _ _ _
            · split
              · exact ih _ _ _ _
              · exact refused _ rfl
        | hint23 =>
            simp only [readHint, if_neg left, hintRecords]
            split
            · exact ih _ _ _ _
            · split
              · exact ih _ _ _ _
              · exact refused _ rfl
        | hint124 =>
            simp only [readHint, if_neg left, hintRecords]
            split
            · exact endRecord_finish left fun result v => ih _ _ result v
            · split
              · exact endRecord_finish left fun result v => ih _ _ result v
              · exact ih _ _ _ _
        | hint125 =>
            simp only [readHint, if_neg left, hintRecords]
            split
            · exact endRecord_finish left fun result v => ih _ _ result v
            · split
              · exact endRecord_finish left fun result v => ih _ _ result v
              · exact endRecord_finish left fun result v => ih _ _ result v

/-- The octets of a record in front of what the records behind it return. -/
def HintReturn.after (octets : List Byte) : HintReturn → HintReturn
  | .parsed newVal => .parsed (octets ++ newVal)
  | .offending v => .offending v

theorem HintReturn.after_nil (ret : HintReturn) : ret.after [] = ret := by
  cases ret <;> rfl

theorem HintReturn.after_after (octets octets' : List Byte) (ret : HintReturn) :
    (ret.after octets').after octets = ret.after (octets ++ octets') := by
  cases ret with
  | parsed newVal => exact congrArg HintReturn.parsed (List.append_assoc _ _ _).symm
  | offending v => rfl

def nextRecord (last : Option ParseHints) (records : List ParseHints) :
    Option (ParseHints × List ParseHints) :=
  match records with
  | [] => last.map fun ph => (ph, [])
  | ph :: records => some (ph, records)

/-- What a value and the records of a hint say that is returned: the octets of the pieces if
they make up the whole value, or the position that no record takes a piece of. -/
inductive HintOutcome (last : Option ParseHints) :
    List ParseHints → List Byte → HintReturn → Prop
  | done {records : List ParseHints} : HintOutcome last records [] (.parsed [])
  | refused {records : List ParseHints} {v : List Byte} (left : v ≠ [])
      (next : nextRecord last records = none) : HintOutcome last records v (.offending v)
  | failed {records behind : List ParseHints} {v : List Byte} {ph : ParseHints} (left : v ≠ [])
      (next : nextRecord last records = some (ph, behind))
      (fails : ∀ pieces rest, ¬ ph.Takes v pieces rest) :
      HintOutcome last records v (.offending v)
  | taken {records behind : List ParseHints} {v rest : List Byte} {ph : ParseHints}
      {pieces : List (List Byte)} {ret : HintReturn} (left : v ≠ [])
      (next : nextRecord last records = some (ph, behind)) (takes : ph.Takes v pieces rest)
      (outcome : HintOutcome last behind rest ret) :
      HintOutcome last records v (ret.after (ph.encode pieces))

theorem HintOutcome.offending_suffix {last : Option ParseHints} {records : List ParseHints}
    {v : List Byte} {ret : HintReturn} (outcome : HintOutcome last records v ret)
    {position : List Byte} (offends : ret = .offending position) :
    position ≠ [] ∧ position <:+ v := by
  induction outcome with
  | done => nomatch offends
  | refused left _ =>
      cases offends
      exact ⟨left, List.suffix_refl _⟩
  | failed left _ _ =>
      cases offends
      exact ⟨left, List.suffix_refl _⟩
  | @taken _ _ _ _ _ _ ret _ _ takes _ ih =>
      cases ret with
      | parsed newVal => nomatch offends
      | offending v =>
          have inside := ih offends
          exact ⟨inside.1, inside.2.trans takes.suffix⟩

/-- The value comes to no idle record that stops it: none that repeats, and not to the last
one. -/
def HintAdvances (last : Option ParseHints) (records : List ParseHints) (v : List Byte) : Prop :=
  match records with
  | [] => v = [] ∨ ∀ ph ∈ last, ¬ ph.Idle
  | ph :: records =>
      v = [] ∨ ((ph.Idle → ¬ ph.isRepeat) ∧
        ∀ pieces rest, ph.Takes v pieces rest → HintAdvances last records rest)

theorem ParseHints.Fails.not_takes {ph : ParseHints} {v rest : List Byte}
    {pieces : List (List Byte)} (fails : ph.Fails v) : ¬ ph.Takes v pieces rest := by
  intro takes
  nomatch (parseHintsParse_of_fails fails).unique (parseHintsParse_of_takes takes)

theorem finalLoop_outcome {ph : ParseHints} (advances : ¬ ph.Idle) (v : List Byte) :
    ∃ ret, HintOutcome (some ph) [] v ret ∧ ∃ bound, ∀ fuel passes result,
      bound ≤ fuel → v.length < passes →
        finalLoop fuel passes ph result v = some (ret.after result) := by
  induction size : v.length using Nat.strongRecOn generalizing v with
  | ind size ih =>
      subst size
      by_cases left : v = []
      · subst v
        refine ⟨.parsed [], .done, 0, fun fuel passes result _ more => ?_⟩
        rcases Nat.exists_eq_add_of_le' more with ⟨passes, rfl⟩
        exact congrArg (some ∘ HintReturn.parsed) (List.append_nil result).symm
      · rcases ph.takes_or_fails_of_advances advances left with ⟨pieces, rest, takes⟩ | fails
        · rcases ih rest.length (takes.shorter advances left) rest rfl with
            ⟨ret, outcome, bound, looped⟩
          rcases parseHintsParse_of_takes takes with ⟨bound', parsed⟩
          refine ⟨ret.after (ph.encode pieces), .taken left rfl takes outcome, max bound bound',
            fun fuel passes result enough more => ?_⟩
          have shorter := takes.shorter advances left
          rcases Nat.exists_eq_add_of_le' more with ⟨passes, rfl⟩
          have parsed' := parsed fuel (by omega)
          have behind := looped fuel (passes + v.length) (result ++ ph.encode pieces)
            (by omega) (by omega)
          change finalLoop fuel (passes + v.length + 1) ph result v = _
          rw [finalLoop, if_neg left]
          simp only [parsed', behind, HintReturn.after_after]
        · rcases parseHintsParse_of_fails fails with ⟨bound, failed⟩
          refine ⟨.offending v, .failed left rfl fun _ _ => fails.not_takes, bound,
            fun fuel passes result enough more => ?_⟩
          rcases Nat.exists_eq_add_of_le' more with ⟨passes, rfl⟩
          change finalLoop fuel (passes + v.length + 1) ph result v = _
          rw [finalLoop, if_neg left]
          simp only [failed fuel enough]
          rfl

theorem applyRecords_ended (last : Option ParseHints) (records : List ParseHints) :
    ∃ ret, HintOutcome last records [] ret ∧ ∀ result,
      Settles (fun fuel => applyRecords fuel last records result []) (ret.after result) := by
  refine ⟨.parsed [], .done, fun result => ⟨1, fun fuel enough => ?_⟩⟩
  rcases Nat.exists_eq_add_of_le' enough with ⟨fuel, rfl⟩
  have result_eq : HintReturn.after result (.parsed []) = .parsed result :=
    congrArg HintReturn.parsed (List.append_nil result)
  rw [result_eq]
  exact applyRecords_nil fuel last records result

theorem applyRecords_outcome {last : Option ParseHints} {records : List ParseHints}
    {v : List Byte} (wellFormed : HintRecords.WellFormed ⟨records, last⟩)
    (advances : HintAdvances last records v) :
    ∃ ret, HintOutcome last records v ret ∧ ∀ result,
      Settles (fun fuel => applyRecords fuel last records result v) (ret.after result) := by
  induction records generalizing v with
  | nil =>
      by_cases left : v = []
      · subst v
        exact applyRecords_ended last []
      · cases last with
        | none =>
            refine ⟨.offending v, .refused left rfl, fun result => ⟨0, fun _ _ => ?_⟩⟩
            exact if_neg left
        | some ph =>
            have busy := (advances.resolve_left left) ph rfl
            rcases finalLoop_outcome busy v with ⟨ret, outcome, bound, looped⟩
            refine ⟨ret, outcome, fun result =>
              ⟨max bound (v.length + 1), fun fuel enough => ?_⟩⟩
            exact looped fuel fuel result (by omega) (by omega)
  | cons ph records ih =>
      by_cases left : v = []
      · subst v
        exact applyRecords_ended last (ph :: records)
      · rcases advances.resolve_left left with ⟨once, next⟩
        have first := wellFormed.ended ph List.mem_cons_self
        have ends : ph.Idle → ¬ ph.isRepeat ∧ ph.terminator = 0 :=
          fun idle => ⟨once idle, first idle⟩
        rcases ph.takes_or_fails ends left with ⟨pieces, rest, takes⟩ | fails
        · rcases ih wellFormed.tail (next pieces rest takes) with ⟨ret, outcome, settled⟩
          refine ⟨ret.after (ph.encode pieces), .taken left rfl takes outcome, fun result => ?_⟩
          rcases settled (result ++ ph.encode pieces) with ⟨bound, applied⟩
          rcases parseHintsParse_of_takes takes with ⟨bound', parsed⟩
          refine ⟨max bound bound', fun fuel enough => ?_⟩
          have parsed' := parsed fuel (by omega)
          have applied' := applied fuel (by omega)
          simp only [applyRecords, if_neg left, parsed', applied', HintReturn.after_after]
        · rcases parseHintsParse_of_fails fails with ⟨bound, failed⟩
          refine ⟨.offending v, .failed left rfl fun _ _ => fails.not_takes,
            fun result => ⟨bound, fun fuel enough => ?_⟩⟩
          simp only [applyRecords, if_neg left, failed fuel enough]
          rfl

theorem finalLoop_eq_none {ph : ParseHints} (idle : ph.Idle) (first : ph.SeparatorFirst)
    {v : List Byte} (left : v ≠ []) (fuel passes : Nat) (result : List Byte) :
    finalLoop fuel passes ph result v = none := by
  induction passes generalizing result with
  | zero => rfl
  | succ passes ih =>
      rw [finalLoop, if_neg left]
      by_cases again : ph.isRepeat
      · rw [parseHintsParse_of_idle idle again (first idle) left]
      · cases parsed : parseHintsParse fuel ph v with
        | none => rfl
        | some ended =>
            -- an idle record leaves the value as it is
            have stays := parseHintsParse_of_takes (idle.takes again (first idle) v)
            have same := (settles_parseHintsParse parsed).unique stays
            subst same
            exact ih _

theorem hintAdvances_of_settles {last : Option ParseHints} {records : List ParseHints}
    {result v : List Byte} {ret : HintReturn}
    (wellFormed : HintRecords.WellFormed ⟨records, last⟩)
    (returns : Settles (fun fuel => applyRecords fuel last records result v) ret) :
    HintAdvances last records v := by
  induction records generalizing result v with
  | nil =>
      by_cases left : v = []
      · exact .inl left
      · refine .inr fun ph mem idle => ?_
        cases mem
        rcases returns with ⟨bound, settled⟩
        have returned : finalLoop bound bound ph result v = some ret :=
          settled bound (Nat.le_refl _)
        rw [finalLoop_eq_none idle (wellFormed.last ph rfl) left] at returned
        nomatch returned
  | cons ph records ih =>
      by_cases left : v = []
      · exact .inl left
      · have first := wellFormed.ended ph List.mem_cons_self
        rcases returns with ⟨bound, settled⟩
        refine .inr ⟨fun idle again => ?_, fun pieces rest takes => ?_⟩
        · have returned := settled bound (Nat.le_refl _)
          simp only [applyRecords, if_neg left,
            parseHintsParse_of_idle idle again (first idle) left] at returned
          nomatch returned
        · rcases parseHintsParse_of_takes takes with ⟨bound', parsed⟩
          have behind : Settles (fun fuel =>
              applyRecords fuel last records (result ++ ph.encode pieces) rest) ret := by
            refine ⟨max bound bound', fun fuel enough => ?_⟩
            have returned := settled fuel (by omega)
            simpa only [applyRecords, if_neg left, parsed fuel (by omega)] using returned
          exact ih wellFormed.tail behind

/-- The positions at which the final loop uses the record `ph`, from `v` on. -/
inductive FinalPass (ph : ParseHints) (v : List Byte) : List Byte → Prop
  | start : FinalPass ph v v
  | next {w rest octets : List Byte} (position : FinalPass ph v w) (left : w ≠ [])
      (taken : Settles (fun fuel => parseHintsParse fuel ph w) (some (octets, rest))) :
      FinalPass ph v rest

theorem FinalPass.left {ph : ParseHints} {v w : List Byte} (position : FinalPass ph v w)
    (left : w ≠ []) : v ≠ [] := by
  induction position with
  | start => exact left
  | next _ left' _ ih => exact ih left'

def ConsumesOrFails (ph : ParseHints) (v : List Byte) : Prop :=
  ∃ ended, Settles (fun fuel => parseHintsParse fuel ph v) ended ∧
    ∀ octets rest, ended = some (octets, rest) → rest.length < v.length

theorem consumesOrFails {ph : ParseHints} (advances : ¬ ph.Idle) {v : List Byte}
    (left : v ≠ []) : ConsumesOrFails ph v := by
  rcases ph.takes_or_fails_of_advances advances left with ⟨pieces, rest, takes⟩ | fails
  · refine ⟨_, parseHintsParse_of_takes takes, fun octets rest' pair => ?_⟩
    cases pair
    exact takes.shorter advances left
  · exact ⟨_, parseHintsParse_of_fails fails, nofun⟩

theorem endRecord_ended {fuel : Nat} {ph ph' : ParseHints} {records : HintRecords}
    {result v result' v' : List Byte} {next : List Byte → List Byte → Option HintStop}
    (left : v ≠ []) (first : ph.SeparatorFirst)
    (advances : HintAdvances (records.behind ph).last (records.behind ph).ended v)
    (behind : ∀ result v, HintAdvances records.last records.ended v →
      next result v = some (.ended ph' result' v') → ¬ ph'.Idle)
    (ended : endRecord fuel ph result v next = some (.ended ph' result' v')) : ¬ ph'.Idle := by
  rcases advances.resolve_left left with ⟨once, following⟩
  rw [endRecord] at ended
  cases parsed : parseHintsParse fuel ph v with
  | none =>
      rw [parsed] at ended
      nomatch ended
  | some taken =>
      rw [parsed] at ended
      cases taken with
      | none => nomatch ended
      | some taken =>
          rcases takes_of_parseHintsParse (fun idle => ⟨once idle, first idle⟩) left parsed with
            ⟨pieces, takes, _⟩
          exact behind _ _ (following pieces _ takes) ended

theorem readHint_ended {fuel : Nat} {state : HintState} {ph ph' : ParseHints}
    {result hint v result' v' : List Byte} (noTerminator : ph.terminator = 0)
    (separated : state = .hint125 → ph.separator ≠ 0) (noNul : 0 ∉ hint) (left' : v' ≠ [])
    (advances : HintAdvances (hintRecords state ph hint).last (hintRecords state ph hint).ended v)
    (ended : readHint fuel state ph result hint v = some (.ended ph' result' v')) :
    ¬ ph'.Idle := by
  induction hint generalizing state ph result v with
  | nil =>
      cases ended
      exact (advances.resolve_left left') ph' rfl
  | cons h hint ih =>
      simp only [List.mem_cons, not_or] at noNul
      have first := ParseHints.separatorFirst noTerminator
      by_cases left : v = []
      · subst v
        have stopped :
            readHint fuel state ph result (h :: hint) [] = some (.ended ph result []) := by
          cases state <;> rfl
        rw [stopped] at ended
        cases ended
        exact absurd rfl left'
      · cases state with
        | hint12 =>
            simp only [readHint, if_neg left] at ended
            simp only [hintRecords] at advances
            split at ended
            next star =>
              rw [if_pos star] at advances
              refine ih ?_ ?_ noNul.2 advances ended
              · exact noTerminator
              · exact nofun
            next star =>
              rw [if_neg star] at advances
              split at ended
              next digit =>
                rw [if_pos digit] at advances
                refine ih ?_ ?_ noNul.2 advances ended
                · exact noTerminator
                · exact nofun
              · nomatch ended
        | hint23 =>
            simp only [readHint, if_neg left] at ended
            simp only [hintRecords] at advances
            split at ended
            next digit =>
              rw [if_pos digit] at advances
              refine ih ?_ ?_ noNul.2 advances ended
              · exact noTerminator
              · exact nofun
            next digit =>
              rw [if_neg digit] at advances
              split at ended
              next format =>
                rw [if_pos format] at advances
                refine ih ?_ ?_ noNul.2 advances ended
                · exact noTerminator
                · exact nofun
              · nomatch ended
        | hint124 =>
            simp only [readHint, if_neg left] at ended
            simp only [hintRecords] at advances
            split at ended
            next star =>
              rw [if_pos star] at advances
              exact endRecord_ended left first advances
                (fun _ _ => ih rfl nofun noNul.2) ended
            next star =>
              rw [if_neg star] at advances
              split at ended
              next digit =>
                rw [if_pos digit] at advances
                exact endRecord_ended left first advances
                  (fun _ _ => ih rfl nofun noNul.2) ended
              next digit =>
                rw [if_neg digit] at advances
                refine ih ?_ ?_ noNul.2 advances ended
                · exact noTerminator
                · exact fun _ => Ne.symm noNul.1
        | hint125 =>
            simp only [readHint, if_neg left] at ended
            simp only [hintRecords] at advances
            split at ended
            next star =>
              rw [if_pos star] at advances
              exact endRecord_ended left first advances
                (fun _ _ => ih rfl nofun noNul.2) ended
            next star =>
              rw [if_neg star] at advances
              split at ended
              next digit =>
                rw [if_pos digit] at advances
                exact endRecord_ended left first advances
                  (fun _ _ => ih rfl nofun noNul.2) ended
              next digit =>
                rw [if_neg digit] at advances
                have first' : ParseHints.SeparatorFirst { ph with terminator := h } :=
                  fun idle => absurd idle.2.2 (separated rfl)
                exact endRecord_ended left first' advances
                  (fun _ _ => ih rfl nofun noNul.2) ended

/-- A hint reads a value: there is a result for the whole value or an offending position inside
it, and no pass of the final loop stays where it is. -/
structure HintReads (hint value : CString) : Prop where
  returns : ∃ ret, Settles (fun fuel => parseOctetHint fuel hint value) ret ∧
    HintOutcome (hintRecords .hint12 {} hint.chars).last
      (hintRecords .hint12 {} hint.chars).ended value.chars ret
  inside : ∀ position, Settles (fun fuel => parseOctetHint fuel hint value) (.offending position) →
    position ≠ [] ∧ position <:+ value.chars
  finalPass : ∀ fuel ph result v w,
    readHint fuel .hint12 {} [] hint.chars value.chars = some (.ended ph result v) →
      FinalPass ph v w → w ≠ [] → ConsumesOrFails ph w

theorem parseOctetHint_succ (fuel : Nat) (hint value : CString) :
    parseOctetHint (fuel + 1) hint value =
      applyRecords (fuel + 1) (hintRecords .hint12 {} hint.chars).last
        (hintRecords .hint12 {} hint.chars).ended [] value.chars :=
  readHint_finish fuel .hint12 {} [] hint.chars value.chars

theorem settles_parseOctetHint_iff {hint value : CString} {ret : HintReturn} :
    Settles (fun fuel => parseOctetHint fuel hint value) ret ↔
      Settles (fun fuel => applyRecords fuel (hintRecords .hint12 {} hint.chars).last
        (hintRecords .hint12 {} hint.chars).ended [] value.chars) ret := by
  constructor
  · rintro ⟨bound, settled⟩
    refine ⟨bound + 1, fun fuel enough => ?_⟩
    rcases Nat.exists_eq_add_of_le' enough with ⟨fuel, rfl⟩
    exact (parseOctetHint_succ _ hint value).symm.trans (settled (fuel + bound + 1) (by omega))
  · rintro ⟨bound, settled⟩
    refine ⟨bound + 1, fun fuel enough => ?_⟩
    rcases Nat.exists_eq_add_of_le' enough with ⟨fuel, rfl⟩
    exact (parseOctetHint_succ _ hint value).trans (settled (fuel + bound + 1) (by omega))

theorem hintAdvances_of_returns {hint value : CString} {ret : HintReturn}
    (returns : Settles (fun fuel => parseOctetHint fuel hint value) ret) :
    HintAdvances (hintRecords .hint12 {} hint.chars).last
      (hintRecords .hint12 {} hint.chars).ended value.chars :=
  hintAdvances_of_settles (hintRecords_wellFormed .hint12 {} hint.chars rfl nofun hint.noNul)
    (settles_parseOctetHint_iff.mp returns)

/-- A hint reads a value exactly if the value comes to no idle record that stops it. -/
theorem parseOctetHint_reads_iff (hint value : CString) :
    HintReads hint value ↔
      HintAdvances (hintRecords .hint12 {} hint.chars).last
        (hintRecords .hint12 {} hint.chars).ended value.chars := by
  constructor
  · intro reads
    rcases reads.returns with ⟨ret, returned, _⟩
    exact hintAdvances_of_returns returned
  · intro advances
    have wellFormed := hintRecords_wellFormed .hint12 {} hint.chars rfl nofun hint.noNul
    rcases applyRecords_outcome wellFormed advances with ⟨ret, outcome, settled⟩
    have returned : Settles (fun fuel => parseOctetHint fuel hint value) ret := by
      rw [settles_parseOctetHint_iff]
      simpa only [HintReturn.after_nil] using settled []
    constructor
    · exact ⟨ret, returned, outcome⟩
    · intro position offends
      exact outcome.offending_suffix (returned.unique offends)
    · intro fuel ph result v w ended position left
      have busy : ¬ ph.Idle := by
        refine readHint_ended ?_ ?_ hint.noNul (position.left left) advances ended
        · rfl
        · exact nofun
      exact consumesOrFails busy left

/-- `1d:-` is used up behind `1:-`, and nothing reads the `2`. -/
theorem not_parseOctetHint_reads : ¬ ∀ hint value : CString, HintReads hint value := by
  intro reads
  have read := reads ⟨[0x31, 0x64, 0x3a, 0x2d], by decide⟩ ⟨[0x31, 0x3a, 0x2d, 0x32], by decide⟩
  rcases read.returns with ⟨ret, returned, _⟩
  let ph : ParseHints := { length := 1, format := 0x64, separator := 0x3a, terminator := 0x2d }
  have records : hintRecords .hint12 {} [0x31, 0x64, 0x3a, 0x2d] = ⟨[ph], some {}⟩ := by
    decide +kernel
  have advances := hintAdvances_of_returns returned
  rw [records] at advances
  have parsed : parseHintsParse 1 ph [0x31, 0x3a, 0x2d, 0x32] = some (some ([1], [0x32])) := by
    decide +kernel
  rcases takes_of_parseHintsParse (fun idle => absurd idle.2.2 (by decide))
    (List.cons_ne_nil _ _) parsed with ⟨pieces, takes, _⟩
  -- the terminator ends the only record, and the record that is left is empty
  have behind := (advances.resolve_left (List.cons_ne_nil _ _)).2 pieces _ takes
  exact behind.resolve_left (List.cons_ne_nil _ _) {} rfl (by decide)

end NetSnmp
