import NetSnmp.Reader.Basic

/-!
# Rules for what a reader does

The bytes that a reader inspects and its other events, as a property that is kept from one part of
a routine to the next.
-/

namespace NetSnmp.Reader

variable {α β : Type} {good : Event → Prop}

/-- The reader ends, each of its events is `good`, it fails outside of the memory only with such an
event, and a value that it returns satisfies `post`. -/
structure Keeps (good : Event → Prop) (reader : Reader α) (post : α → Prop) : Prop where
  ends : reader.outcome ≠ .diverged
  fault : reader.outcome = .fault → .read 0 ∈ reader.log
  events : ∀ event ∈ reader.log, good event
  result : ∀ value, reader.outcome = .ok value → post value

theorem log_bind (first : Reader α) (next : α → Reader β) :
    (first >>= next).log =
      first.log ++ match first.outcome with
        | .ok value => (next value).log
        | _ => [] := by
  change (Reader.bind first next).log = _
  unfold Reader.bind outcome
  cases first.ending <;> simp

namespace Keeps

variable {reader : Reader α} {post : α → Prop}

theorem weaken {post' : α → Prop} (keeps : reader.Keeps good post)
    (more : ∀ value, post value → post' value) : reader.Keeps good post' :=
  ⟨keeps.ends, keeps.fault, keeps.events, fun value returned => more value
    (keeps.result value returned)⟩

theorem returned (keeps : reader.Keeps good post) :
    reader.Keeps good fun value => reader.outcome = .ok value :=
  ⟨keeps.ends, keeps.fault, keeps.events, fun _ returned => returned⟩

theorem bind {next : α → Reader β} {mid : α → Prop} {post : β → Prop}
    (head : reader.Keeps good mid) (tail : ∀ value, mid value → (next value).Keeps good post) :
    (reader >>= next).Keeps good post := by
  cases ended : reader.outcome with
  | ok value =>
      have last := tail value (head.result value ended)
      refine ⟨?_, ?_, ?_, ?_⟩
      · simpa [ended] using last.ends
      · intro faulted
        have faulted' : (next value).outcome = .fault := by simpa [ended] using faulted
        rw [log_bind, ended]
        exact List.mem_append_right _ (last.fault faulted')
      · intro event mem
        rw [log_bind, ended] at mem
        rcases List.mem_append.mp mem with mem | mem
        · exact head.events event mem
        · exact last.events event mem
      · intro result returned
        exact last.result result (by simpa [ended] using returned)
  | null =>
      refine ⟨by simp [ended], by simp [ended], ?_, by simp [ended]⟩
      intro event mem
      exact head.events event (by simpa [log_bind, ended] using mem)
  | fault =>
      refine ⟨by simp [ended], ?_, ?_, by simp [ended]⟩
      · intro _
        rw [log_bind]
        exact List.mem_append_left _ (head.fault ended)
      · intro event mem
        exact head.events event (by simpa [log_bind, ended] using mem)
  | diverged => exact absurd ended head.ends

theorem pure {value : α} (holds : post value) : (Pure.pure value : Reader α).Keeps good post := by
  refine ⟨by simp, by simp, fun event mem => absurd mem List.not_mem_nil, ?_⟩
  intro value' returned
  rcases Outcome.ok.inj returned with rfl
  exact holds

theorem null : (Reader.null : Reader α).Keeps good post :=
  ⟨by simp, by simp, fun _ mem => absurd mem List.not_mem_nil, by simp⟩

theorem failIf (condition : Prop) [Decidable condition] :
    (Reader.failIf condition).Keeps good fun _ => ¬ condition := by
  rw [Reader.failIf]
  split
  · exact .null
  · exact .pure ‹_›

theorem emit {event : Event} (isGood : good event) :
    (Reader.emit event).Keeps good fun _ => True := by
  refine ⟨by simp, by simp, ?_, fun _ _ => trivial⟩
  intro event' mem
  rcases List.mem_singleton.mp mem with rfl
  exact isGood

theorem deref {pointer : Ptr} (isGood : good (.read pointer.length)) :
    (Reader.deref pointer).Keeps good fun byte => pointer.head? = some byte := by
  cases pointer with
  | nil =>
      refine ⟨by simp, fun _ => List.mem_singleton_self _, ?_, by simp⟩
      intro event mem
      rcases List.mem_singleton.mp mem with rfl
      exact isGood
  | cons byte rest =>
      refine ⟨by simp, by simp, ?_, ?_⟩
      · intro event mem
        rcases List.mem_singleton.mp mem with rfl
        exact isGood
      · intro value returned
        rcases Outcome.ok.inj returned with rfl
        rfl

theorem readBytes {length : Nat} {pointer : Ptr}
    (isGood : ∀ count < length, good (.read (pointer.length - count))) :
    (Reader.readBytes length pointer).Keeps good fun _ => True := by
  induction length generalizing pointer with
  | zero => exact .pure trivial
  | succ length ih =>
      refine .bind (.deref (isGood 0 (Nat.succ_pos _))) fun byte _ => ?_
      refine .bind (ih ?_) fun bytes _ => .pure trivial
      intro count less
      have later := isGood (count + 1) (Nat.succ_lt_succ less)
      rwa [List.length_drop, Nat.sub_sub, Nat.add_comm]

theorem within {count : Nat} {data : Ptr} (keeps : reader.Keeps good post)
    (isGood : ∀ inside, good (.window inside)) :
    (Reader.within data count reader).Keeps good post := by
  refine ⟨keeps.ends, ?_, ?_, keeps.result⟩
  · intro faulted
    exact List.mem_append_left _ (keeps.fault faulted)
  · intro event mem
    rcases List.mem_append.mp mem with mem | mem
    · exact keeps.events event mem
    · rcases List.mem_singleton.mp mem with rfl
      exact isGood _

end Keeps

end NetSnmp.Reader
