import NetSnmp.Config.Line

/-!
# Octet strings of a line

Octet strings are written one after the other with a blank in between.  Each of them is
a field with quotes or with hexadecimal digits, and the reader takes one after the other
from the front of the line.
-/

namespace NetSnmp

/-- The strings that are written one after the other, with single blanks in between. -/
def saveOctetStrings : (strs : List (List Byte)) → List Byte
  | [] => []
  | [str] => saveOctetString (some str)
  | str :: strs => saveOctetString (some str) ++ 0x20 :: saveOctetStrings strs

/-- So many strings that are read one after the other, and what is left of the line. -/
def readOctetStrings : (count : Nat) → (line : Option (List Byte)) →
    Option (List (Option (List Byte)) × Option (List Byte))
  | 0, line => some ([], line)
  | count + 1, line => do
      let read ← readConfigReadOctetString line none
      let (strs, rest) ← readOctetStrings count read.rest
      some (read.bytes :: strs, rest)

def AtEnd (line : Option (List Byte)) : Prop := line.getD [] = []

theorem skipWhite_saveOctetString (str rest : List Byte) :
    skipWhite (saveOctetString (some str) ++ rest) = some (saveOctetString (some str) ++ rest) := by
  rw [saveOctetString]
  split
  · exact skipWhite_cons rfl (by decide)
  · exact skipWhite_cons rfl (by decide)

theorem skipWhite_saveOctetStrings {strs : List (List Byte)} (nonempty : strs ≠ []) :
    skipWhite (saveOctetStrings strs) = some (saveOctetStrings strs) := by
  match strs with
  | [str] => simpa [saveOctetStrings] using skipWhite_saveOctetString str []
  | str :: _ :: _ => exact skipWhite_saveOctetString str _

/-- Octet strings that are written to a line come back from it, up to its end. -/
theorem readOctetStrings_saveOctetStrings (strs : List (List Byte))
    (short : ∀ str ∈ strs, str.length < snmpMaxbuf) :
    ∃ rest, readOctetStrings strs.length (some (saveOctetStrings strs)) =
      some (strs.map some, rest) ∧ AtEnd rest := by
  induction strs with
  | nil => exact ⟨some [], rfl, rfl⟩
  | cons str strs ih =>
      have here := short str List.mem_cons_self
      rcases ih fun str' mem => short str' (List.mem_cons_of_mem _ mem) with ⟨rest, read, atEnd⟩
      cases strs with
      | nil =>
          have first := readConfigReadOctetString_saveOctetString [] here (by simp)
          rw [List.append_nil] at first
          refine ⟨none, ?_, rfl⟩
          rw [List.length_singleton, saveOctetStrings, readOctetStrings, first]
          rfl
      | cons str' strs =>
          have first := readConfigReadOctetString_saveOctetString
            (0x20 :: saveOctetStrings (str' :: strs)) here (by simp [isspace])
          rw [skipWhite_space, skipWhite_saveOctetStrings (List.cons_ne_nil _ _)] at first
          refine ⟨rest, ?_, atEnd⟩
          rw [List.length_cons, saveOctetStrings, readOctetStrings, first]
          · simp only [Option.bind_eq_bind, Option.bind_some, read, List.map_cons]
          · exact List.cons_ne_nil _ _

theorem readOctetStrings_threeStrings :
    (∀ str ∈ [[], [0x20, 0x20], [0x61, 0x00, 0xff]], str.length < snmpMaxbuf) ∧
      ∃ rest, readOctetStrings 3 (some (saveOctetStrings [[], [0x20, 0x20], [0x61, 0x00, 0xff]])) =
        some ([some [], some [0x20, 0x20], some [0x61, 0x00, 0xff]], rest) ∧ AtEnd rest :=
  ⟨by decide, readOctetStrings_saveOctetStrings [[], [0x20, 0x20], [0x61, 0x00, 0xff]] (by decide)⟩

end NetSnmp
