import NetSnmp.Config.Text
import NetSnmp.Exits
import NetSnmp.Machine

/-!
# Buffers that are printed to

`*buf`, `*buf_len` and `*out_len` of the printing functions, with the functions that print
characters and strings. A write at or beyond the length of the buffer is undefined.
-/

namespace NetSnmp

/-- A buffer of `*buf_len` octets, of which `*out_len` are printed. -/
structure PrintBuf where
  octets : List Byte
  outLen : Nat
  fits : outLen ≤ octets.length
  deriving Repr

inductive PrintExit where
  /-- `return 0` -/
  | noRoom
  /-- The value is printed without the hint behind what is printed. -/
  | badHint (buf : PrintBuf)
  /-- An octet is read or written where there is none, or an `int` overflows. -/
  | undefined
  deriving Repr

/-- `allow_realloc`, and the sizes for which `realloc` finds memory. -/
structure PrintMemory where
  allowRealloc : Bool
  available : Nat → Bool

namespace PrintBuf

def text (buf : PrintBuf) : List Byte := buf.octets.take buf.outLen

/-- `*(*buf + (*out_len)++) = c` -/
def put (buf : PrintBuf) (c : Byte) : Except PrintExit PrintBuf :=
  if inside : buf.outLen < buf.octets.length then
    .ok ⟨buf.octets.set buf.outLen c, buf.outLen + 1, by rwa [List.length_set]⟩
  else .error .undefined

/-- `*(*buf + *out_len) = '\0'` -/
def putNul (buf : PrintBuf) : Except PrintExit PrintBuf :=
  if buf.outLen < buf.octets.length then
    .ok ⟨buf.octets.set buf.outLen 0, buf.outLen, by rw [List.length_set]; exact buf.fits⟩
  else .error .undefined

def putAll : List Byte → PrintBuf → Except PrintExit PrintBuf
  | [], buf => .ok buf
  | c :: string, buf => do putAll string (← buf.put c)

/-- `*out_len = saved_out_len` -/
def rewind (buf : PrintBuf) (savedOutLen : Nat) : Except PrintExit PrintBuf :=
  if inside : savedOutLen ≤ buf.octets.length then .ok ⟨buf.octets, savedOutLen, inside⟩
  else .error .undefined

end PrintBuf

namespace PrintMemory

variable (memory : PrintMemory)

/-- `allow_realloc && snmp_realloc(buf, buf_len)` -/
def snmpRealloc (buf : PrintBuf) : Option PrintBuf :=
  let newLen := snmpReallocLen buf.octets.length
  if memory.allowRealloc ∧ memory.available newLen then
    some ⟨buf.octets ++ List.replicate (newLen - buf.octets.length) 0, buf.outLen, by
      rw [List.length_append]
      exact Nat.le_add_right_of_le buf.fits⟩
  else none

theorem snmpRealloc_longer {buf buf' : PrintBuf} (grown : memory.snmpRealloc buf = some buf') :
    buf.octets.length < buf'.octets.length := by
  have longer := le_snmpReallocLen buf.octets.length
  simp only [snmpRealloc] at grown
  split at grown
  · cases grown
    simp only [List.length_append, List.length_replicate]
    omega
  · nomatch grown

/-- The loop that reallocates the buffer while it is shorter than what is needed. -/
def makeRoom (needed : Nat) (buf : PrintBuf) : Except PrintExit PrintBuf :=
  if needed ≤ buf.octets.length then .ok buf
  else
    match _grown : memory.snmpRealloc buf with
    | none => .error .noRoom
    | some buf' => makeRoom needed buf'
termination_by needed - buf.octets.length
decreasing_by
  have longer := memory.snmpRealloc_longer _grown
  omega

/-- `if (*out_len >= *buf_len && !(allow_realloc && snmp_realloc(buf, buf_len))) return 0;` -/
def roomForOne (buf : PrintBuf) : Except PrintExit PrintBuf :=
  if buf.outLen < buf.octets.length then .ok buf
  else
    match memory.snmpRealloc buf with
    | none => .error .noRoom
    | some buf => .ok buf

/-- `snmp_cstrcat` -/
def cstrcat (string : List Byte) (buf : PrintBuf) : Except PrintExit PrintBuf := do
  let buf ← memory.makeRoom (buf.outLen + string.length + 2) buf
  let buf ← buf.putAll string
  buf.putNul

def putSeparator (c : Byte) (buf : PrintBuf) : Except PrintExit PrintBuf := do
  let buf ← memory.makeRoom (buf.outLen + 2) buf
  let buf ← buf.put c
  buf.putNul

/-- `isprint` in the C locale. -/
def isprint (c : Byte) : Bool := 0x20 ≤ c && c ≤ 0x7e

def putOne (c : Byte) (buf : PrintBuf) : Except PrintExit PrintBuf := do
  let buf ← memory.roomForOne buf
  buf.put c

/-- One character of `sprint_realloc_asciistring`. -/
def putAscii (c : Byte) (buf : PrintBuf) : Except PrintExit PrintBuf :=
  if isprint c || isspace c then
    if c = 0x5c || c = 0x22 then do
      let buf ← memory.putOne 0x5c buf
      memory.putOne c buf
    else memory.putOne c buf
  else memory.putOne 0x2e buf

/-- `sprint_realloc_asciistring` -/
def asciistring : List Byte → PrintBuf → Except PrintExit PrintBuf
  | [], buf => do
      let buf ← memory.roomForOne buf
      buf.putNul
  | c :: cp, buf => do
      let buf ← memory.putAscii c buf
      asciistring cp buf

end PrintMemory

def PrintMemory.Unlimited (memory : PrintMemory) : Prop :=
  memory.allowRealloc ∧ ∀ size, memory.available size

def Prints (memory : PrintMemory) (buf : PrintBuf) (string : List Byte) :
    Except PrintExit PrintBuf → Prop :=
  Meets (fun buf' => buf'.text = buf.text ++ string)
    fun reason => reason = .noRoom ∧ ¬ memory.Unlimited

section

variable {memory : PrintMemory} {buf : PrintBuf} {string : List Byte}

theorem PrintBuf.length_text (buf : PrintBuf) : buf.text.length = buf.outLen :=
  List.length_take_of_le buf.fits

theorem PrintBuf.put_of_lt (c : Byte) (inside : buf.outLen < buf.octets.length) :
    ∃ buf', buf.put c = .ok buf' ∧ buf'.text = buf.text ++ [c] ∧
      buf'.octets.length = buf.octets.length := by
  refine ⟨_, dif_pos inside, ?_, List.length_set⟩
  rw [text, text, List.take_add_one, List.take_set_of_le (Nat.le_refl _)]
  simp [inside]

theorem PrintBuf.putNul_of_lt (inside : buf.outLen < buf.octets.length) :
    ∃ buf', buf.putNul = .ok buf' ∧ buf'.text = buf.text ∧
      buf'.octets[buf'.outLen]? = some 0 := by
  refine ⟨_, if_pos inside, List.take_set_of_le (Nat.le_refl _), ?_⟩
  simp [inside]

theorem PrintBuf.outLen_eq {buf' : PrintBuf} (text_eq : buf'.text = buf.text ++ string) :
    buf'.outLen = buf.outLen + string.length := by
  rw [← length_text, text_eq, List.length_append, length_text]

theorem PrintBuf.putAll_of_le (inside : buf.outLen + string.length ≤ buf.octets.length) :
    ∃ buf', buf.putAll string = .ok buf' ∧ buf'.text = buf.text ++ string ∧
      buf'.octets.length = buf.octets.length := by
  induction string generalizing buf with
  | nil => exact ⟨buf, rfl, (List.append_nil _).symm, rfl⟩
  | cons c string ih =>
      rw [List.length_cons] at inside
      rcases buf.put_of_lt c (by omega) with ⟨next, put_eq, text_eq, length_eq⟩
      have outLen_eq := outLen_eq text_eq
      rw [List.length_singleton] at outLen_eq
      rcases @ih next (by omega) with ⟨buf', all_eq, text_eq', length_eq'⟩
      refine ⟨buf', ?_, ?_, length_eq'.trans length_eq⟩
      · rw [putAll, put_eq]
        exact all_eq
      · rw [text_eq', text_eq, List.append_assoc, List.singleton_append]

theorem PrintBuf.rewind_of_prefix {buf' : PrintBuf} (text_eq : buf'.text = buf.text ++ string) :
    ∃ back, buf'.rewind buf.outLen = .ok back ∧ back.text = buf.text := by
  have outLen_eq := outLen_eq text_eq
  have inside : buf.outLen ≤ buf'.octets.length := by
    have fits := buf'.fits
    omega
  refine ⟨_, dif_pos inside, ?_⟩
  have front := congrArg (List.take buf.outLen) text_eq
  rw [List.take_append_of_le_length (Nat.le_of_eq buf.length_text.symm),
    List.take_of_length_le (Nat.le_of_eq buf.length_text)] at front
  rw [text, List.take_take, Nat.min_eq_left (by omega)] at front
  exact front

theorem PrintMemory.snmpRealloc_text {buf' : PrintBuf}
    (grown : memory.snmpRealloc buf = some buf') : buf'.text = buf.text := by
  simp only [snmpRealloc] at grown
  split at grown
  · cases grown
    exact List.take_append_of_le_length buf.fits
  · nomatch grown

theorem PrintMemory.limited_of_refused (refused : memory.snmpRealloc buf = none) :
    ¬ memory.Unlimited := by
  intro unlimited
  simp [snmpRealloc, unlimited.1, unlimited.2] at refused

theorem PrintMemory.makeRoom_meets (needed : Nat) (buf : PrintBuf) :
    Meets (fun buf' : PrintBuf => buf'.text = buf.text ∧ needed ≤ buf'.octets.length)
      (fun reason => reason = .noRoom ∧ ¬ memory.Unlimited) (memory.makeRoom needed buf) := by
  fun_induction memory.makeRoom needed buf with
  | case1 buf enough => exact ⟨rfl, enough⟩
  | case2 buf _ refused => exact ⟨rfl, memory.limited_of_refused refused⟩
  | case3 buf _ buf' grown ih =>
      apply ih.imp _ fun _ left => left
      intro last made
      exact ⟨made.1.trans (memory.snmpRealloc_text grown), made.2⟩

theorem PrintMemory.roomForOne_meets (buf : PrintBuf) :
    Meets (fun buf' : PrintBuf => buf'.text = buf.text ∧ buf'.outLen < buf'.octets.length)
      (fun reason => reason = .noRoom ∧ ¬ memory.Unlimited) (memory.roomForOne buf) := by
  rw [roomForOne]
  split
  next room => exact ⟨rfl, room⟩
  next =>
    cases grown : memory.snmpRealloc buf with
    | none => exact ⟨rfl, memory.limited_of_refused grown⟩
    | some buf' =>
        have text_eq := memory.snmpRealloc_text grown
        have longer := memory.snmpRealloc_longer grown
        have outLen_eq := @PrintBuf.outLen_eq buf [] buf' (by rw [text_eq, List.append_nil])
        have fits := buf.fits
        rw [List.length_nil] at outLen_eq
        exact ⟨text_eq, by omega⟩

theorem PrintMemory.prints_cstrcat (string : List Byte) (buf : PrintBuf) :
    Prints memory buf string (memory.cstrcat string buf) := by
  rw [cstrcat]
  apply (memory.makeRoom_meets _ buf).bind
  rintro room ⟨text_eq, enough⟩
  have outLen_eq := @PrintBuf.outLen_eq buf [] room (by rw [text_eq, List.append_nil])
  rw [List.length_nil] at outLen_eq
  rcases @PrintBuf.putAll_of_le room string (by omega) with ⟨put, put_eq, put_text, length_eq⟩
  have put_len := PrintBuf.outLen_eq put_text
  rcases @PrintBuf.putNul_of_lt put (by omega) with ⟨last, nul_eq, last_text, -⟩
  rw [put_eq]
  change Meets _ _ put.putNul
  rw [nul_eq]
  exact last_text.trans (put_text.trans (congrArg (· ++ string) text_eq))

theorem PrintMemory.prints_putSeparator (c : Byte) (buf : PrintBuf) :
    Prints memory buf [c] (memory.putSeparator c buf) := by
  rw [putSeparator]
  apply (memory.makeRoom_meets _ buf).bind
  rintro room ⟨text_eq, enough⟩
  have outLen_eq := @PrintBuf.outLen_eq buf [] room (by rw [text_eq, List.append_nil])
  rw [List.length_nil] at outLen_eq
  rcases @PrintBuf.put_of_lt room c (by omega) with ⟨put, put_eq, put_text, length_eq⟩
  have put_len := PrintBuf.outLen_eq put_text
  rw [List.length_singleton] at put_len
  rcases @PrintBuf.putNul_of_lt put (by omega) with ⟨last, nul_eq, last_text, -⟩
  rw [put_eq]
  change Meets _ _ put.putNul
  rw [nul_eq]
  exact last_text.trans (put_text.trans (congrArg (· ++ [c]) text_eq))

theorem PrintMemory.prints_putOne (c : Byte) (buf : PrintBuf) :
    Prints memory buf [c] (memory.putOne c buf) := by
  rw [putOne]
  apply (memory.roomForOne_meets buf).bind
  rintro room ⟨text_eq, enough⟩
  rcases room.put_of_lt c enough with ⟨put, put_eq, put_text, -⟩
  rw [put_eq]
  exact put_text.trans (congrArg (· ++ [c]) text_eq)

theorem PrintMemory.end_meets (buf : PrintBuf) :
    Meets (fun buf' : PrintBuf => buf'.text = buf.text ∧ buf'.octets[buf'.outLen]? = some 0)
      (fun reason => reason = .noRoom ∧ ¬ memory.Unlimited) (do
        let buf ← memory.roomForOne buf
        buf.putNul) := by
  apply (memory.roomForOne_meets buf).bind
  rintro room ⟨text_eq, enough⟩
  rcases room.putNul_of_lt enough with ⟨last, nul_eq, last_text, nul⟩
  rw [nul_eq]
  exact ⟨last_text.trans text_eq, nul⟩

def PrintsSome (memory : PrintMemory) (buf : PrintBuf) : Except PrintExit PrintBuf → Prop :=
  Meets (fun buf' => ∃ string, buf'.text = buf.text ++ string)
    fun reason => reason = .noRoom ∧ ¬ memory.Unlimited

theorem Prints.some {printed : Except PrintExit PrintBuf} (prints : Prints memory buf string printed) :
    PrintsSome memory buf printed :=
  Meets.imp prints (fun _ text_eq => ⟨string, text_eq⟩) fun _ left => left

theorem PrintsSome.bind {printed : Except PrintExit PrintBuf}
    {next : PrintBuf → Except PrintExit PrintBuf} (prints : PrintsSome memory buf printed)
    (behind : ∀ buf', PrintsSome memory buf' (next buf')) :
    PrintsSome memory buf (printed >>= next) := by
  apply Meets.bind prints
  rintro buf' ⟨string, text_eq⟩
  apply (behind buf').imp _ fun _ left => left
  rintro last ⟨string', text_eq'⟩
  exact ⟨string ++ string', by rw [text_eq', text_eq, List.append_assoc]⟩

theorem PrintMemory.printsSome_putAscii (c : Byte) (buf : PrintBuf) :
    PrintsSome memory buf (memory.putAscii c buf) := by
  rw [putAscii]
  split
  · split
    · exact (memory.prints_putOne 0x5c buf).some.bind fun buf' => (memory.prints_putOne c buf').some
    · exact (memory.prints_putOne c buf).some
  · exact (memory.prints_putOne 0x2e buf).some

theorem PrintMemory.printsSome_asciistring (cp : List Byte) (buf : PrintBuf) :
    PrintsSome memory buf (memory.asciistring cp buf) := by
  induction cp generalizing buf with
  | nil =>
      apply (memory.end_meets buf).imp _ fun _ left => left
      intro buf' ended
      exact ⟨[], by rw [ended.1, List.append_nil]⟩
  | cons c cp ih => exact (memory.printsSome_putAscii c buf).bind ih

end

end NetSnmp
