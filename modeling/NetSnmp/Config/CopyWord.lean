import Mathlib.Logic.Function.Basic
import NetSnmp.Config.Text
import NetSnmp.CString

/-!
# Words in buffers

How `copy_nword_const` writes a word into the memory of its caller, byte by byte, and what the word
is in terms of the text.
-/

namespace NetSnmp

namespace CopyWord

/-- The memory with the variables `to` (here `dest`) and `len`. -/
structure WordBuffer where
  memory : Nat → Byte
  dest : Nat
  len : Nat

/-- A character is stored if there is room. In the last place it is replaced by the zero. -/
def WordBuffer.put (buffer : WordBuffer) (c : Byte) : WordBuffer :=
  if buffer.len > 0 then
    let memory := Function.update buffer.memory buffer.dest c
    let dest := buffer.dest + 1
    let len := buffer.len - 1
    { memory := if len = 0 then Function.update memory (dest - 1) 0 else memory, dest, len }
  else buffer

/-- A loop of `copy_nword_const`, up to a character that ends the word. -/
def copyLoop (ends : Byte → Bool) : List Byte → WordBuffer → List Byte × WordBuffer
  | [], buffer => ([], buffer)
  | [c], buffer => if ends c then ([c], buffer) else ([], buffer.put c)
  | c :: c' :: text, buffer =>
      if ends c then (c :: c' :: text, buffer)
      else if c = 0x5c then copyLoop ends text (buffer.put c')
      else copyLoop ends (c' :: text) (buffer.put c)

/-- `if (len > 0) *to = 0;` -/
def WordBuffer.finish (buffer : WordBuffer) : Nat → Byte :=
  if buffer.len > 0 then Function.update buffer.memory buffer.dest 0 else buffer.memory

/-- `copy_nword_const`: the memory, and where it continues in the text. -/
def copyNwordConst (text : List Byte) (memory : Nat → Byte) (dest len : Nat) :
    (Nat → Byte) × Option (List Byte) :=
  match text with
  | [] => (WordBuffer.finish { memory, dest, len }, skipWhite [])
  | c :: rest =>
      if c = 0x22 ∨ c = 0x27 then
        let copied := copyLoop (fun c' => c' = c) rest { memory, dest, len }
        -- one more, if it is not the end of the text
        (copied.2.finish, skipWhite (copied.1.drop 1))
      else
        let copied := copyLoop isspace (c :: rest) { memory, dest, len }
        (copied.2.finish, skipWhite copied.1)

/-- The characters in front of one that ends the word. A backslash takes the next character as it
is, and is a character itself at the end of the text. -/
inductive ReadsAs (ends : Byte → Bool) : List Byte → List Byte → List Byte → Prop where
  | ended {rest : List Byte} (atEnd : ∀ c ∈ rest.head?, ends c = true) : ReadsAs ends rest [] rest
  | escaped {c : Byte} {text word rest : List Byte} (reads : ReadsAs ends text word rest) :
      ReadsAs ends (0x5c :: c :: text) (c :: word) rest
  | plain {c : Byte} {text word rest : List Byte} (goesOn : ends c = false)
      (single : c = 0x5c → text = []) (reads : ReadsAs ends text word rest) :
      ReadsAs ends (c :: text) (c :: word) rest

/-- The token at the beginning of a text and what is behind it. -/
inductive IsToken : List Byte → List Byte → List Byte → Prop where
  | quoted {quote : Byte} {text word rest : List Byte} (isQuote : quote = 0x22 ∨ quote = 0x27)
      (reads : ReadsAs (fun c => c = quote) text word rest) :
      IsToken (quote :: text) word (rest.drop 1)
  | bare {text word rest : List Byte} (noQuote : ∀ c ∈ text.head?, ¬ (c = 0x22 ∨ c = 0x27))
      (reads : ReadsAs isspace text word rest) : IsToken text word rest

/-- The first character that is not blank. There is none at the end and in front of a comment. -/
inductive ContinuesAt : List Byte → Option (List Byte) → Prop where
  | blank {c : Byte} {text : List Byte} {next : Option (List Byte)} (space : isspace c = true)
      (continues : ContinuesAt text next) : ContinuesAt (c :: text) next
  | ended : ContinuesAt [] none
  | comment {text : List Byte} : ContinuesAt (0x23 :: text) none
  | here {c : Byte} {text : List Byte} (noSpace : isspace c = false) (noComment : c ≠ 0x23) :
      ContinuesAt (c :: text) (some (c :: text))

variable {ends : Byte → Bool} {text word rest : List Byte}

theorem readsAs_copyChars (ends : Byte → Bool) (text : List Byte) :
    ReadsAs ends text (copyChars ends text).1 (copyChars ends text).2 := by
  induction text using copyChars.induct ends with
  | case1 => exact .ended fun c mem => by simp at mem
  | case2 c ended =>
      simp only [copyChars, ended, if_true]
      exact .ended fun c' mem => by simpa [← Option.mem_some_iff.mp mem] using ended
  | case3 c goes =>
      simp only [copyChars, goes]
      exact .plain (by simpa using goes) (fun _ => rfl) (.ended fun c mem => by simp at mem)
  | case4 c c' rest ended =>
      simp only [copyChars, ended, if_true]
      exact .ended fun c'' mem => by simpa [← Option.mem_some_iff.mp mem] using ended
  | case5 c' rest goes ih =>
      simp only [copyChars, goes]
      exact .escaped ih
  | case6 c c' rest goes noEscape ih =>
      simp only [copyChars, goes, noEscape, if_false]
      exact .plain (by simpa using goes) (fun same => absurd same noEscape) ih

theorem ReadsAs.mem (reads : ReadsAs ends text word rest) : ∀ c ∈ word, c ∈ text := by
  induction reads with
  | ended => exact fun c mem => absurd mem List.not_mem_nil
  | escaped reads ih =>
      intro c mem
      rcases List.mem_cons.mp mem with rfl | mem
      · exact List.mem_cons_of_mem _ List.mem_cons_self
      · exact List.mem_cons_of_mem _ (List.mem_cons_of_mem _ (ih c mem))
  | plain goesOn single reads ih =>
      intro c mem
      rcases List.mem_cons.mp mem with rfl | mem
      · exact List.mem_cons_self
      · exact List.mem_cons_of_mem _ (ih c mem)

theorem IsToken.mem (isToken : IsToken text word rest) : ∀ c ∈ word, c ∈ text := by
  cases isToken with
  | quoted isQuote reads => exact fun c mem => List.mem_cons_of_mem _ (reads.mem c mem)
  | bare noQuote reads => exact reads.mem

theorem skipWhite_continuesAt (text : List Byte) : ContinuesAt text (skipWhite text) := by
  induction text with
  | nil => exact .ended
  | cons c text ih =>
      by_cases space : isspace c = true
      · have skip : skipWhite (c :: text) = skipWhite text := by
          simp only [skipWhite, List.dropWhile_cons_of_pos space]
        rw [skip]
        exact .blank space ih
      · have noSpace : isspace c = false := by simpa using space
        by_cases comment : c = 0x23
        · subst comment
          exact .comment
        · rw [skipWhite_cons noSpace comment]
          exact .here noSpace comment

theorem copyLoop_eq (ends : Byte → Bool) (text : List Byte) (buffer : WordBuffer) :
    copyLoop ends text buffer =
      ((copyChars ends text).2, (copyChars ends text).1.foldl WordBuffer.put buffer) := by
  induction text using copyChars.induct ends generalizing buffer with
  | case1 => rfl
  | case2 c ended => simp [copyLoop, copyChars, ended]
  | case3 c goes => simp [copyLoop, copyChars, goes]
  | case4 c c' rest ended => simp [copyLoop, copyChars, ended]
  | case5 c' rest goes ih => simp [copyLoop, copyChars, goes, ih]
  | case6 c c' rest goes noEscape ih => simp [copyLoop, copyChars, goes, noEscape, ih]

theorem WordBuffer.foldl_put_full (word : List Byte) {buffer : WordBuffer} (full : buffer.len = 0) :
    word.foldl put buffer = buffer := by
  induction word with
  | nil => rfl
  | cons c word ih =>
      have skip : buffer.put c = buffer := by simp [put, full]
      rw [List.foldl_cons, skip, ih]

theorem WordBuffer.finish_outside (word : List Byte) (buffer : WordBuffer) {address : Nat}
    (outside : address < buffer.dest ∨ buffer.dest + buffer.len ≤ address) :
    (word.foldl put buffer).finish address = buffer.memory address := by
  induction word generalizing buffer with
  | nil =>
      rw [List.foldl_nil, finish]
      split
      · rw [Function.update_of_ne (by omega)]
      · rfl
  | cons c word ih =>
      rw [List.foldl_cons]
      by_cases room : buffer.len > 0
      · rw [ih]
        · simp only [put, room, if_true]
          have elsewhere : address ≠ buffer.dest := by omega
          split
          · rw [Nat.add_sub_cancel, Function.update_of_ne elsewhere,
              Function.update_of_ne elsewhere]
          · rw [Function.update_of_ne elsewhere]
        · simp only [put, room, if_true]
          omega
      · have skip : buffer.put c = buffer := by simp [put, room]
        rw [skip]
        exact ih buffer outside

theorem WordBuffer.finish_holds (word : List Byte) (buffer : WordBuffer) (room : buffer.len > 0)
    (noNul : ∀ c ∈ word, c ≠ 0) :
    HoldsString (word.foldl put buffer).finish buffer.dest (word.take (buffer.len - 1)) := by
  induction word generalizing buffer with
  | nil =>
      rw [List.take_nil, List.foldl_nil, finish, if_pos room]
      exact Function.update_self ..
  | cons c word ih =>
      rw [List.foldl_cons]
      cases last : buffer.len - 1 with
      | zero =>
          have full : (buffer.put c).len = 0 := by simp [put, room, last]
          rw [foldl_put_full word full, List.take_zero, HoldsString, finish, full]
          simp [put, room, last]
      | succ left =>
          have put_eq : buffer.put c =
              { memory := Function.update buffer.memory buffer.dest c,
                dest := buffer.dest + 1, len := left + 1 } := by
            simp [put, room, last]
          rw [put_eq, List.take_succ_cons]
          refine ⟨?_, noNul c List.mem_cons_self, ?_⟩
          · rw [finish_outside word _ (.inl (Nat.lt_succ_self buffer.dest))]
            exact Function.update_self ..
          · apply ih _ (Nat.succ_pos left)
            exact fun c' mem => noNul c' (List.mem_cons_of_mem _ mem)

/-- What is copied for the token of a text, for every buffer. -/
structure CopiesToken (text token : List Byte) (next : Option (List Byte)) : Prop where
  continues : ∀ memory dest len, (copyNwordConst text memory dest len).2 = next
  outside : ∀ memory dest len address, address < dest ∨ dest + len ≤ address →
    (copyNwordConst text memory dest len).1 address = memory address
  holds : ∀ memory dest len, len > 0 →
    HoldsString (copyNwordConst text memory dest len).1 dest (token.take (len - 1))

theorem exists_token (text : List Byte) : ∃ token rest next,
    IsToken text token rest ∧ ContinuesAt rest next ∧
      (∀ memory dest len, copyNwordConst text memory dest len =
        ((token.foldl WordBuffer.put { memory, dest, len }).finish, next)) ∧
      ∀ len, copyNword text len = (token.take (len - 1), next) := by
  cases text with
  | nil =>
      have reads : ReadsAs isspace [] [] [] := .ended fun c mem => by simp at mem
      refine ⟨[], [], none, .bare (fun c mem => by simp at mem) reads, .ended, ?_, ?_⟩
      · exact fun memory dest len => rfl
      · intro len
        rw [copyNword, List.take_nil]
  | cons c text =>
      by_cases isQuote : c = 0x22 ∨ c = 0x27
      · have reads := readsAs_copyChars (fun c' => c' = c) text
        refine ⟨_, _, _, .quoted isQuote reads, skipWhite_continuesAt _, ?_, ?_⟩
        · intro memory dest len
          simp only [copyNwordConst, isQuote, if_true, copyLoop_eq]
        · intro len
          simp [copyNword, isQuote]
      · have reads := readsAs_copyChars isspace (c :: text)
        have noQuote : ∀ c' ∈ (c :: text).head?, ¬ (c' = 0x22 ∨ c' = 0x27) := by
          intro c' mem
          rwa [← Option.mem_some_iff.mp mem]
        refine ⟨_, _, _, .bare noQuote reads, skipWhite_continuesAt _, ?_, ?_⟩
        · intro memory dest len
          simp only [copyNwordConst, isQuote, if_false, copyLoop_eq]
        · intro len
          simp [copyNword, isQuote]

theorem copyNwordConst_holds_copyNword (text : CString) (memory : Nat → Byte) (dest : Nat)
    {len : Nat} (room : len > 0) :
    HoldsString (copyNwordConst text.chars memory dest len).1 dest (copyNword text.chars len).1 ∧
      (copyNwordConst text.chars memory dest len).2 = (copyNword text.chars len).2 := by
  rcases exists_token text.chars with ⟨token, rest, next, isToken, -, copies, word_eq⟩
  rw [copies, word_eq]
  refine ⟨WordBuffer.finish_holds token { memory, dest, len } room ?_, rfl⟩
  exact fun c mem => ne_of_mem_of_not_mem (isToken.mem c mem) text.noNul

/-- Any buffer gets as much of the token as fits in front of the zero. -/
theorem copyNwordConst_copies (text : CString) : ∃ token rest next,
    IsToken text.chars token rest ∧ ContinuesAt rest next ∧ CopiesToken text.chars token next := by
  rcases exists_token text.chars with ⟨token, rest, next, isToken, continues, copies, -⟩
  refine ⟨token, rest, next, isToken, continues, ?_⟩
  constructor
  · intro memory dest len
    rw [copies]
  · intro memory dest len address outside
    rw [copies]
    exact WordBuffer.finish_outside token { memory, dest, len } outside
  · intro memory dest len room
    rw [copies]
    refine WordBuffer.finish_holds token { memory, dest, len } room ?_
    exact fun c mem => ne_of_mem_of_not_mem (isToken.mem c mem) text.noNul

end CopyWord

end NetSnmp
