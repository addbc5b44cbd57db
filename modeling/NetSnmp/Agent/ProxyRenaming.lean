import NetSnmp.Agent.Proxy
import NetSnmp.KeyedRows

/-!
# The proxy as a renaming

A remote agent whose instances below the remote base appear below the local name.
-/

namespace NetSnmp

variable {sp : SimpleProxy} {mode : ProxyMode} {requestvb var : VariableList} {name suffix : Oid}

/-- The instances of an agent in their order, each with a value that can be sent, and the exception
for a GET that finds none. -/
structure RemoteAgent where
  instances : List VariableList
  increasing : Increasing VariableList.name instances
  values : ∀ i ∈ instances, EncodableValue i.type i.val ∧ isNullType i.type = false
  exception : Byte
  missing : isNullType exception = true

namespace RemoteAgent

variable {agent : RemoteAgent}

def get (agent : RemoteAgent) (name : Oid) : VariableList :=
  (rowWith VariableList.name agent.instances name).getD ⟨name, agent.exception, .unset 0⟩

def getNext (agent : RemoteAgent) (name : Oid) : VariableList :=
  (agent.instances.find? fun i => name < i.name).getD ⟨name, snmpEndofmibview, .unset 0⟩

def answer (agent : RemoteAgent) (mode : ProxyMode) (var : VariableList) : VariableList :=
  if mode = .getNext then agent.getNext var.name else agent.get var.name

theorem isNext_getNext (agent : RemoteAgent) (name : Oid) :
    IsNext VariableList.name agent.instances name
      (agent.instances.find? fun i => name < i.name) := by
  have sorted : SortedBy VariableList.name agent.instances := agent.increasing.imp le_of_lt
  have test_iff : ∀ i ∈ agent.instances, decide (name < i.name) = true ↔ name < i.name := by simp
  refine (isNext_find?_iff sorted test_iff ?_).mpr (by simp)
  intro i _ i' _ behind le
  exact lt_of_lt_of_le behind le

theorem answer_mem_or (agent : RemoteAgent) (mode : ProxyMode) (var : VariableList) :
    agent.answer mode var ∈ agent.instances ∨
      ∃ type, isNullType type = true ∧ agent.answer mode var = ⟨var.name, type, .unset 0⟩ := by
  by_cases next : mode = .getNext
  · simp only [answer, getNext, if_pos next]
    cases found : agent.instances.find? fun i => var.name < i.name with
    | none => exact .inr ⟨snmpEndofmibview, rfl, rfl⟩
    | some i => exact .inl (List.mem_of_find?_eq_some found)
  · simp only [answer, get, if_neg next]
    cases found : rowWith VariableList.name agent.instances var.name with
    | none => exact .inr ⟨agent.exception, agent.missing, rfl⟩
    | some i => exact .inl (agent.increasing.rowWith_eq_some_iff.mp found).1

end RemoteAgent

def SimpleProxy.remoteBase (sp : SimpleProxy) : Oid := if sp.base = [] then sp.name else sp.base

def sentName (sp : SimpleProxy) (name : Oid) : Oid :=
  if name < sp.name then if sp.base = [] then name else startName sp.base
  else sp.remoteBase ++ name.drop sp.name.length

def waitingName (sp : SimpleProxy) (name : Oid) : Oid :=
  if name < sp.name ∧ sp.base ≠ [] then overwrite name (startWritten sp.base) else name

theorem le_append (front back : Oid) : front ≤ front ++ back := by
  induction front with
  | nil => exact not_lt.mp (List.not_lt_nil _)
  | cons first rest ih =>
      apply not_lt.mp
      intro lt
      rcases List.cons_lt_cons_iff.mp lt with less | ⟨-, less⟩
      · exact absurd less (lt_irrefl _)
      · exact absurd less (not_lt.mpr ih)

theorem prefix_of_between {base middle : Oid} (from_base : base ≤ middle)
    (to_below : middle ≤ base ++ suffix) : base <+: middle := by
  induction base generalizing middle with
  | nil => simp
  | cons first base ih =>
      cases middle with
      | nil => exact absurd from_base (not_le.mpr (List.nil_lt_cons _ _))
      | cons first' middle =>
          have notLess : ¬ first' < first := by
            intro less
            exact not_lt.mpr from_base (List.cons_lt_cons_iff.mpr (.inl less))
          have notGreater : ¬ first < first' := by
            intro less
            exact not_lt.mpr to_below (List.cons_lt_cons_iff.mpr (.inl less))
          obtain rfl : first = first' := by omega
          have le : base ≤ middle := by
            apply not_lt.mp
            intro less
            exact not_lt.mpr from_base (List.cons_lt_cons_iff.mpr (.inr ⟨rfl, less⟩))
          have le' : middle ≤ base ++ suffix := by
            apply not_lt.mp
            intro less
            exact not_lt.mpr to_below (List.cons_lt_cons_iff.mpr (.inr ⟨rfl, less⟩))
          simpa using ih le le'

theorem startName_lt {base : Oid} (nonempty : base ≠ []) : startName base < base := by
  rcases List.eq_nil_or_concat' base with rfl | ⟨front, last, rfl⟩
  · exact absurd rfl nonempty
  · by_cases small : last ≤ 1
    · have here : startName (front ++ [last]) = front ++ [] := by simp [startName, small]
      rw [here]
      apply (append_lt_append_iff_left front).mpr
      simp
    · have here : startName (front ++ [last]) = front ++ [last - 1, maxSubid] := by
        simp [startName, small]
      rw [here]
      apply (append_lt_append_iff_left front).mpr
      apply List.cons_lt_cons_iff.mpr
      left
      omega

theorem sentName_append (suffix : Oid) : sentName sp (sp.name ++ suffix) =
    sp.remoteBase ++ suffix := by
  rw [sentName, if_neg (not_lt_of_ge (le_append _ _)), List.drop_left]

theorem sentName_lt (before : name < sp.name) : sentName sp name < sp.remoteBase := by
  by_cases base : sp.base = []
  · simp only [sentName, SimpleProxy.remoteBase, before, base, if_true]
  · simpa only [sentName, SimpleProxy.remoteBase, before, base, if_true, if_false] using
      startName_lt base

theorem proxyOut_eq (asks : (∃ suffix, requestvb.name = sp.name ++ suffix ∧
      (sp.remoteBase ++ suffix).length ≤ maxOidLen) ∨
      (mode = .getNext ∧ requestvb.name < sp.name)) :
    proxyOut sp mode requestvb =
      some ({ requestvb with name := waitingName sp requestvb.name },
        sentName sp requestvb.name) := by
  rcases asks with ⟨suffix, inside, fits⟩ | ⟨next, before⟩
  · have notBefore : ¬ requestvb.name < sp.name := by
      rw [inside]
      exact not_lt_of_ge (le_append _ _)
    by_cases base : sp.base = []
    · have sent : sp.name ++ requestvb.name.drop sp.name.length = requestvb.name := by
        rw [inside, List.drop_left]
      simp [proxyOut, base, waitingName, sentName, notBefore, SimpleProxy.remoteBase, sent]
    · simp only [SimpleProxy.remoteBase, if_neg base, List.length_append] at fits
      have notLong : ¬ (requestvb.name.length + sp.base.length < sp.name.length ∨
          maxOidLen < requestvb.name.length + sp.base.length - sp.name.length) := by
        rw [inside, List.length_append]
        omega
      have sent : (sp.base ++ requestvb.name.drop sp.name.length).take
          (requestvb.name.length + sp.base.length - sp.name.length) =
          sp.base ++ requestvb.name.drop sp.name.length := by
        apply List.take_of_length_le
        rw [inside, List.drop_left, List.length_append, List.length_append]
        omega
      simp [proxyOut, base, snmpOidCompare_neg_iff, notBefore, notLong, sent, waitingName,
        sentName, SimpleProxy.remoteBase]
  · by_cases base : sp.base = []
    · simp [proxyOut, base, waitingName, sentName, before]
    · simp [proxyOut, base, waitingName, sentName, before, next, snmpOidCompare_neg_iff]

theorem isLegitimate_iff {base : Oid} : isLegitimate base name = true ↔ base <+: name := by
  simp only [isLegitimate, Bool.not_eq_true', Bool.or_eq_false_iff, decide_eq_false_iff_not,
    not_lt, not_not, ne_eq, snmpOidCompare_eq_zero_iff]
  constructor
  · rintro ⟨-, same⟩
    exact same ▸ List.take_prefix _ _
  · rintro ⟨rest, rfl⟩
    simp

/-- The value of a varbind below the base is stored under the local name, and that of another one is
discarded. -/
def renamed (sp : SimpleProxy) (requestvb var : VariableList) : VariableList :=
  if isLegitimate sp.remoteBase var.name then
    { snmpSetVarTypedValue requestvb var.type var.val with
      name := sp.name ++ var.name.drop sp.remoteBase.length }
  else ⟨requestvb.name, asnNull, .unset 0⟩

theorem proxyIn_eq (fits : ∀ suffix, var.name = sp.remoteBase ++ suffix →
      (sp.name ++ suffix).length ≤ maxOidLen) :
    proxyIn sp requestvb var = some (renamed sp requestvb var) := by
  have discarded (var' : VariableList) : snmpSetVarTypedValue var' asnNull (.unset 0) =
      ⟨var'.name, asnNull, .unset 0⟩ := rfl
  have name_eq : (snmpSetVarTypedValue requestvb var.type var.val).name = requestvb.name := rfl
  cases legitimate : isLegitimate sp.remoteBase var.name with
  | false =>
      by_cases base : sp.base = []
      · simp only [SimpleProxy.remoteBase, if_pos base] at legitimate
        simp [proxyIn, renamed, base, SimpleProxy.remoteBase, legitimate, discarded,
          name_eq]
      · simp only [SimpleProxy.remoteBase, if_neg base] at legitimate
        simp [proxyIn, renamed, base, SimpleProxy.remoteBase, legitimate, discarded,
          name_eq]
  | true =>
      rcases isLegitimate_iff.mp legitimate with ⟨suffix, below⟩
      have short := fits suffix below.symm
      by_cases base : sp.base = []
      · simp only [SimpleProxy.remoteBase, if_pos base] at legitimate below
        have name_eq' : sp.name ++ var.name.drop sp.name.length = var.name := by
          rw [← below, List.drop_left]
        simp [proxyIn, renamed, base, SimpleProxy.remoteBase, legitimate, name_eq']
      · simp only [SimpleProxy.remoteBase, if_neg base] at legitimate below
        have notLong : ¬ maxOidLen < sp.name.length + var.name.length - sp.base.length := by
          rw [← below]
          simp only [List.length_append] at short ⊢
          omega
        simp [proxyIn, renamed, base, SimpleProxy.remoteBase, legitimate, notLong]

/-- The requests after `proxy_handler`, the answer of the agent and `proxy_got_response`. -/
def proxied (sp : SimpleProxy) (agent : RemoteAgent) (mode : ProxyMode)
    (requests : List ProxyRequest) : List ProxyRequest :=
  match proxyHandler sp mode requests with
  | (waiting, none) => waiting
  | (waiting, some sent) =>
      proxyGotResponse sp mode waiting ⟨snmpErrNoerror, 0, sent.map (agent.answer mode)⟩

/-- The names of an entry and of the instances fit into the buffers. -/
structure SimpleProxy.Fits (sp : SimpleProxy) (agent : RemoteAgent) : Prop where
  written : (startWritten sp.base).length ≤ maxOidLen
  renamed : ∀ i ∈ agent.instances, ∀ suffix, i.name = sp.remoteBase ++ suffix →
    (sp.name ++ suffix).length ≤ maxOidLen

/-- A GET in the registered range, or a GETNEXT in it or in front of it. -/
structure ProxyRequest.Asks (sp : SimpleProxy) (mode : ProxyMode) (request : ProxyRequest) :
    Prop where
  type_eq : request.requestvb.type = asnNull
  val_eq : request.requestvb.val = .unset 0
  short : request.requestvb.name.length ≤ maxOidLen
  range : (∃ suffix, request.requestvb.name = sp.name ++ suffix ∧
      (sp.remoteBase ++ suffix).length ≤ maxOidLen) ∨
    (mode = .getNext ∧ request.requestvb.name < sp.name)

def finished (sp : SimpleProxy) (agent : RemoteAgent) (mode : ProxyMode) (request : ProxyRequest) :
    ProxyRequest :=
  { request with
    delegated := false
    requestvb := renamed sp ⟨waitingName sp request.requestvb.name, asnNull, .unset 0⟩
      (agent.answer mode ⟨sentName sp request.requestvb.name, asnNull, .unset 0⟩) }

variable {agent : RemoteAgent} {request : ProxyRequest} {requests : List ProxyRequest}

theorem proxyHandler_eq (asks : ∀ request ∈ requests, request.Asks sp mode) :
    proxyHandler sp mode requests =
      (requests.map fun request =>
        { request with
          delegated := true
          requestvb := ⟨waitingName sp request.requestvb.name, asnNull, .unset 0⟩ },
      some (requests.map fun request =>
        ⟨sentName sp request.requestvb.name, asnNull, .unset 0⟩)) := by
  induction requests with
  | nil => rfl
  | cons request requests ih =>
      have first := asks request List.mem_cons_self
      have rest := ih fun request' mem => asks request' (List.mem_cons_of_mem _ mem)
      have stored : snmpSetVarValue asnNull (.unset 0) = some (.unset 0) := rfl
      simp [proxyHandler, proxyOut_eq first.range, rest, first.type_eq, first.val_eq, stored]

theorem proxyUpdate_eq {waiting after : ProxyRequest → VariableList}
    {var : ProxyRequest → VariableList}
    (each : ∀ request ∈ requests, proxyIn sp (waiting request) (var request) =
      some (after request)) :
    proxyUpdate sp
        (requests.map fun request =>
          { request with delegated := true, requestvb := waiting request })
        (requests.map var) =
      (requests.map fun request =>
        { request with delegated := false, requestvb := after request }, true) := by
  induction requests with
  | nil => rfl
  | cons request requests ih =>
      have first := each request List.mem_cons_self
      have rest := ih fun request' mem => each request' (List.mem_cons_of_mem _ mem)
      simp [proxyUpdate, first, rest]

theorem answer_fits (fits : sp.Fits agent) (asks : request.Asks sp mode) :
    (agent.answer mode ⟨sentName sp request.requestvb.name, asnNull, .unset 0⟩).name =
      sp.remoteBase ++ suffix → (sp.name ++ suffix).length ≤ maxOidLen := by
  intro below
  rcases agent.answer_mem_or mode ⟨sentName sp request.requestvb.name, asnNull, .unset 0⟩ with
    mem | ⟨type, -, same⟩
  · exact fits.renamed _ mem suffix below
  · simp only [same] at below
    rcases asks.range with ⟨asked, inside, -⟩ | ⟨-, before⟩
    · rw [inside, sentName_append] at below
      have short := asks.short
      rw [inside, List.append_cancel_left below] at short
      exact short
    · have lt := sentName_lt before
      rw [below] at lt
      exact absurd lt (not_lt_of_ge (le_append _ _))

theorem proxied_eq (fits : sp.Fits agent) (asks : ∀ request ∈ requests, request.Asks sp mode) :
    proxied sp agent mode requests = requests.map (finished sp agent mode) := by
  have each : ∀ request ∈ requests, proxyIn sp
      ⟨waitingName sp request.requestvb.name, asnNull, .unset 0⟩
      (agent.answer mode ⟨sentName sp request.requestvb.name, asnNull, .unset 0⟩) =
      some (finished sp agent mode request).requestvb := by
    intro request mem
    apply proxyIn_eq
    intro suffix
    exact answer_fits fits (asks request mem)
  have updated := proxyUpdate_eq each
  simp only [proxied, proxyHandler_eq asks, proxyGotResponse, ne_eq, not_true_eq_false, if_false,
    List.map_map]
  simp [Function.comp_def, updated, finished]

def Wanted (sp : SimpleProxy) (agent : RemoteAgent) : ProxyMode → Oid → Oid → Prop
  | .getNext, name, suffix =>
      IsLeast {suffix | name < sp.name ++ suffix ∧
        ∃ i ∈ agent.instances, i.name = sp.remoteBase ++ suffix} suffix
  | _, name, suffix =>
      name = sp.name ++ suffix ∧ ∃ i ∈ agent.instances, i.name = sp.remoteBase ++ suffix

/-- A request holds the instance that it is for under its local name. One that is for none has no
value, and still its name. -/
structure IsRenamed (sp : SimpleProxy) (agent : RemoteAgent) (mode : ProxyMode)
    (request result : ProxyRequest) : Prop where
  answered : result.delegated = false
  status_eq : result.status = request.status
  holds : ∀ i ∈ agent.instances, ∀ suffix, i.name = sp.remoteBase ++ suffix →
    Wanted sp agent mode request.requestvb.name suffix →
    result.requestvb = ⟨sp.name ++ suffix, i.type, i.val⟩
  missing : (∀ suffix, ¬ Wanted sp agent mode request.requestvb.name suffix) →
    result.requestvb.name = request.requestvb.name ∧
      isNullType result.requestvb.type = true ∧ result.requestvb.val = .unset 0

/-- The instance that a request is for has a value that is stored, and for a GETNEXT in front of the
registered range no other instance comes first, or nothing is lost of the name. -/
structure Reaches (sp : SimpleProxy) (agent : RemoteAgent) (mode : ProxyMode) (name : Oid) :
    Prop where
  stored : ∀ i ∈ agent.instances, ∀ suffix, i.name = sp.remoteBase ++ suffix →
    Wanted sp agent mode name suffix → i.type = asnOpaqueCounter64 → i.val = .counter64 0 0
  adjacent : name < sp.name → (∃ i ∈ agent.instances, sp.remoteBase <+: i.name) →
    ∀ i ∈ agent.instances, (if sp.base = [] then name else startName sp.base) < i.name →
      sp.remoteBase ≤ i.name
  kept : name < sp.name → (∀ i ∈ agent.instances, ¬ sp.remoteBase <+: i.name) →
    sp.base = [] ∨ name <+: startWritten sp.base ∨ startWritten sp.base <+: name

theorem overwrite_eq_iff {written : Oid} :
    overwrite name written = name ↔ name <+: written ∨ written <+: name := by
  constructor
  · intro same
    rcases Nat.le_total name.length written.length with le | le
    · left
      have whole : name.drop written.length = [] := List.drop_eq_nil_of_le le
      rw [overwrite, whole, List.append_nil] at same
      exact same ▸ List.take_prefix _ _
    · right
      rw [overwrite, List.take_of_length_le le] at same
      exact same ▸ List.prefix_append _ _
  · rintro (⟨rest, rfl⟩ | ⟨rest, rfl⟩)
    · simp [overwrite]
    · rw [overwrite, List.drop_left, List.take_of_length_le (by simp)]

theorem stored_eq_iff {type : Byte} {val : Vardata} (encodable : EncodableValue type val)
    (notNull : isNullType type = false) :
    (snmpSetVarValue type val).getD (.counter64 0 0) = val ↔
      (type = asnOpaqueCounter64 → val = .counter64 0 0) := by
  have ofStored {type : Byte} {val : Vardata} (stored : snmpSetVarValue type val = some val)
      (other : type ≠ asnOpaqueCounter64) :
      (snmpSetVarValue type val).getD (.counter64 0 0) = val ↔
        (type = asnOpaqueCounter64 → val = .counter64 0 0) := by
    refine iff_of_true (by rw [stored]; rfl) ?_
    intro same
    exact absurd same other
  have ofCopied {type : Byte} {val : Vardata} (notLong : isLong type = false)
      (copied : isCopied type = true) (other : type ≠ asnOpaqueCounter64) :=
    ofStored (snmpSetVarValue_copied val notLong copied) other
  cases encodable with
  | integer lower upper =>
      refine ofStored (snmpSetVarValue_long rfl ?_) (by decide)
      simp only [int32Max] at upper
      omega
  | unsigned isUnsigned upper =>
      simp only [uint32Max] at upper
      rcases isUnsigned with rfl | rfl | rfl | rfl
      all_goals exact ofStored (snmpSetVarValue_long rfl (by omega)) (by decide)
  | counter64 isCounter64 high_le low_le =>
      rcases isCounter64 with rfl | rfl | rfl | rfl
      · exact ofCopied rfl rfl (by decide)
      · have unknown (val : Vardata) : snmpSetVarValue asnOpaqueCounter64 val = none := rfl
        rw [unknown, Option.getD_none]
        simp [eq_comm]
      · exact ofCopied rfl rfl (by decide)
      · exact ofCopied rfl rfl (by decide)
  | string isString =>
      rcases isString with rfl | rfl
      all_goals exact ofCopied rfl rfl (by decide)
  | ipaddress length_eq => exact ofCopied rfl rfl (by decide)
  | opaqueString head => exact ofCopied rfl rfl (by decide)
  | objid encodable => exact ofCopied rfl rfl (by decide)
  | null isNull => exact absurd (isNull.symm.trans notNull) (by decide)
  | bitstring nonempty => exact ofCopied rfl rfl (by decide)
  | floatVal small => exact ofCopied rfl rfl (by decide)
  | doubleVal small => exact ofCopied rfl rfl (by decide)

theorem finished_of_below {i : VariableList} (answered : agent.answer mode
      ⟨sentName sp request.requestvb.name, asnNull, .unset 0⟩ = i)
    (below : i.name = sp.remoteBase ++ suffix) :
    (finished sp agent mode request).requestvb =
      ⟨sp.name ++ suffix, i.type, (snmpSetVarValue i.type i.val).getD (.counter64 0 0)⟩ := by
  have legitimate : isLegitimate sp.remoteBase (sp.remoteBase ++ suffix) = true :=
    isLegitimate_iff.mpr (List.prefix_append _ _)
  simp only [finished, answered, renamed, legitimate, if_true, below, List.drop_left]
  rfl

theorem finished_of_apart (apart : ¬ sp.remoteBase <+: (agent.answer mode
      ⟨sentName sp request.requestvb.name, asnNull, .unset 0⟩).name) :
    (finished sp agent mode request).requestvb =
      ⟨waitingName sp request.requestvb.name, asnNull, .unset 0⟩ := by
  simp [finished, renamed, mt isLegitimate_iff.mp apart]

theorem Wanted.unique {suffix' : Oid} (wanted : Wanted sp agent mode name suffix)
    (wanted' : Wanted sp agent mode name suffix') : suffix = suffix' := by
  cases mode with
  | getNext => exact IsLeast.unique wanted wanted'
  | get => exact List.append_cancel_left (wanted.1.symm.trans wanted'.1)
  | getBulk => exact List.append_cancel_left (wanted.1.symm.trans wanted'.1)
  | setAction => exact List.append_cancel_left (wanted.1.symm.trans wanted'.1)

theorem isRenamed_iff_of_found {i : VariableList} (mem : i ∈ agent.instances)
    (below : i.name = sp.remoteBase ++ suffix)
    (wanted : Wanted sp agent mode request.requestvb.name suffix)
    (answered : agent.answer mode ⟨sentName sp request.requestvb.name, asnNull, .unset 0⟩ = i)
    (adjacent : request.requestvb.name < sp.name → ∀ i' ∈ agent.instances,
      sentName sp request.requestvb.name < i'.name → sp.remoteBase ≤ i'.name) :
    IsRenamed sp agent mode request (finished sp agent mode request) ↔
      Reaches sp agent mode request.requestvb.name := by
  have result := finished_of_below answered below
  have stored_iff := stored_eq_iff (agent.values i mem).1 (agent.values i mem).2
  have only : ∀ i' ∈ agent.instances, ∀ suffix', i'.name = sp.remoteBase ++ suffix' →
      Wanted sp agent mode request.requestvb.name suffix' → i' = i ∧ suffix' = suffix := by
    intro i' mem' suffix' below' wanted'
    obtain rfl := wanted.unique wanted'
    exact ⟨agent.increasing.eq_of_key_eq mem' mem (below'.trans below.symm), rfl⟩
  constructor
  · intro isRenamed
    have stored := (isRenamed.holds i mem suffix below wanted).symm.trans result
    refine ⟨?_, ?_, ?_⟩
    · intro i' mem' suffix' below' wanted'
      rcases only i' mem' suffix' below' wanted' with ⟨rfl, rfl⟩
      exact stored_iff.mp (congrArg VariableList.val stored).symm
    · intro before _ i' mem' behind
      apply adjacent before i' mem'
      simpa [sentName, before] using behind
    · intro _ none
      exact absurd (below ▸ List.prefix_append _ _) (none i mem)
  · intro reaches
    refine ⟨rfl, rfl, ?_, ?_⟩
    · intro i' mem' suffix' below' wanted'
      rcases only i' mem' suffix' below' wanted' with ⟨rfl, rfl⟩
      rw [result, stored_iff.mpr (reaches.stored i' mem' suffix' below' wanted')]
    · intro none
      exact absurd wanted (none suffix)

theorem isRenamed_iff_of_missing
    (none : ∀ suffix, ¬ Wanted sp agent mode request.requestvb.name suffix)
    (kept : (finished sp agent mode request).requestvb.name = request.requestvb.name ↔
      Reaches sp agent mode request.requestvb.name)
    (isNull : isNullType (finished sp agent mode request).requestvb.type = true)
    (unset : (finished sp agent mode request).requestvb.val = .unset 0) :
    IsRenamed sp agent mode request (finished sp agent mode request) ↔
      Reaches sp agent mode request.requestvb.name := by
  rw [← kept]
  constructor
  · intro isRenamed
    exact (isRenamed.missing none).1
  · intro same
    refine ⟨rfl, rfl, ?_, ?_⟩
    · intro i _ suffix _ wanted
      exact absurd wanted (none suffix)
    · intro _
      exact ⟨same, isNull, unset⟩

theorem waitingName_of_inside (inside : name = sp.name ++ suffix) : waitingName sp name = name := by
  have notBefore : ¬ name < sp.name := inside ▸ not_lt_of_ge (le_append _ _)
  simp [waitingName, notBefore]

theorem isRenamed_iff_of_missingInside
    (none : ∀ suffix, ¬ Wanted sp agent mode request.requestvb.name suffix)
    (inside : request.requestvb.name = sp.name ++ suffix)
    (answered : ¬ sp.remoteBase <+: (agent.answer mode
        ⟨sentName sp request.requestvb.name, asnNull, .unset 0⟩).name ∨
      ∃ type, isNullType type = true ∧
        agent.answer mode ⟨sentName sp request.requestvb.name, asnNull, .unset 0⟩ =
          ⟨sentName sp request.requestvb.name, type, .unset 0⟩) :
    IsRenamed sp agent mode request (finished sp agent mode request) ↔
      Reaches sp agent mode request.requestvb.name := by
  have notBefore : ¬ request.requestvb.name < sp.name := inside ▸ not_lt_of_ge (le_append _ _)
  have reaches : Reaches sp agent mode request.requestvb.name := by
    refine ⟨?_, ?_, ?_⟩
    · intro i _ suffix _ wanted
      exact absurd wanted (none suffix)
    · intro before
      exact absurd before notBefore
    · intro before
      exact absurd before notBefore
  rcases answered with apart | ⟨type, isNull, same⟩
  · have result := finished_of_apart apart
    rw [waitingName_of_inside inside] at result
    apply isRenamed_iff_of_missing none
    · simp [result, reaches]
    · rw [result]
      rfl
    · rw [result]
  · have sent : sentName sp request.requestvb.name = sp.remoteBase ++ suffix := by
      rw [inside, sentName_append]
    have result := finished_of_below same sent
    have noValue : (snmpSetVarValue type (.unset 0)).getD (.counter64 0 0) = .unset 0 := by
      simp only [isNullType, Bool.or_eq_true, decide_eq_true_eq] at isNull
      rcases isNull with ((rfl | rfl) | rfl) | rfl
      all_goals rfl
    apply isRenamed_iff_of_missing none
    · refine iff_of_true ?_ reaches
      rw [result, inside]
    · rw [result]
      exact isNull
    · rw [result]
      exact noValue

theorem isRenamed_get_iff (inside : request.requestvb.name = sp.name ++ suffix) :
    IsRenamed sp agent .get request (finished sp agent .get request) ↔
      Reaches sp agent .get request.requestvb.name := by
  have sent : sentName sp request.requestvb.name = sp.remoteBase ++ suffix := by
    rw [inside, sentName_append]
  cases found : rowWith VariableList.name agent.instances (sp.remoteBase ++ suffix) with
  | none =>
      apply isRenamed_iff_of_missingInside ?_ inside
      · right
        refine ⟨agent.exception, agent.missing, ?_⟩
        simp [RemoteAgent.answer, RemoteAgent.get, sent, found]
      · rintro suffix' ⟨inside', i, mem, below⟩
        obtain rfl := List.append_cancel_left (inside.symm.trans inside')
        exact rowWith_eq_none_iff.mp found i mem below
  | some i =>
      rcases agent.increasing.rowWith_eq_some_iff.mp found with ⟨mem, below⟩
      apply isRenamed_iff_of_found mem below
      · exact ⟨inside, i, mem, below⟩
      · simp [RemoteAgent.answer, RemoteAgent.get, sent, found]
      · intro before
        exact absurd before (inside ▸ not_lt_of_ge (le_append _ _))

theorem isRenamed_getNext_inside_iff (inside : request.requestvb.name = sp.name ++ suffix) :
    IsRenamed sp agent .getNext request (finished sp agent .getNext request) ↔
      Reaches sp agent .getNext request.requestvb.name := by
  have sent : sentName sp request.requestvb.name = sp.remoteBase ++ suffix := by
    rw [inside, sentName_append]
  have behind_iff (suffix' : Oid) : request.requestvb.name < sp.name ++ suffix' ↔
      sp.remoteBase ++ suffix < sp.remoteBase ++ suffix' := by
    rw [inside, append_lt_append_iff_left, append_lt_append_iff_left]
  have isNext := agent.isNext_getNext (sp.remoteBase ++ suffix)
  cases found : agent.instances.find? fun i => sp.remoteBase ++ suffix < i.name with
  | none =>
      rw [found] at isNext
      apply isRenamed_iff_of_missingInside ?_ inside
      · right
        refine ⟨snmpEndofmibview, rfl, ?_⟩
        simp [RemoteAgent.answer, RemoteAgent.getNext, sent, found]
      · rintro suffix' ⟨⟨behind, i, mem, below⟩, -⟩
        rw [behind_iff, ← below] at behind
        exact isNext i mem behind
  | some i =>
      rw [found] at isNext
      rcases isNext with ⟨⟨mem, behind⟩, least⟩
      have answered : agent.answer .getNext
          ⟨sentName sp request.requestvb.name, asnNull, .unset 0⟩ = i := by
        simp [RemoteAgent.answer, RemoteAgent.getNext, sent, found]
      by_cases isBelow : sp.remoteBase <+: i.name
      · rcases isBelow with ⟨next, below⟩
        apply isRenamed_iff_of_found mem below.symm ?_ answered
        · intro before
          exact absurd before (inside ▸ not_lt_of_ge (le_append _ _))
        · refine ⟨⟨(behind_iff next).mpr (below ▸ behind), i, mem, below.symm⟩, ?_⟩
          rintro suffix' ⟨behind', i', mem', below'⟩
          rw [behind_iff, ← below'] at behind'
          have le := least i' mem' behind'
          rw [← below, below'] at le
          exact not_lt.mp (mt (append_lt_append_iff_left _).mpr (not_lt_of_ge le))
      · apply isRenamed_iff_of_missingInside ?_ inside
        · left
          rwa [answered]
        · rintro suffix' ⟨⟨behind', i', mem', below'⟩, -⟩
          rw [behind_iff, ← below'] at behind'
          have le := least i' mem' behind'
          rw [below'] at le
          exact isBelow (prefix_of_between ((le_append _ _).trans behind.le) le)

theorem isRenamed_iff_of_noneBelow (before : request.requestvb.name < sp.name)
    (noneBelow : ∀ i ∈ agent.instances, ¬ sp.remoteBase <+: i.name)
    (apart : ¬ sp.remoteBase <+: (agent.answer .getNext
      ⟨sentName sp request.requestvb.name, asnNull, .unset 0⟩).name) :
    IsRenamed sp agent .getNext request (finished sp agent .getNext request) ↔
      Reaches sp agent .getNext request.requestvb.name := by
  have result := finished_of_apart apart
  have noneWanted : ∀ suffix, ¬ Wanted sp agent .getNext request.requestvb.name suffix := by
    rintro suffix ⟨⟨-, i, mem, below⟩, -⟩
    exact noneBelow i mem (below ▸ List.prefix_append _ _)
  have reaches (kept : sp.base = [] ∨ request.requestvb.name <+: startWritten sp.base ∨
      startWritten sp.base <+: request.requestvb.name) :
      Reaches sp agent .getNext request.requestvb.name := by
    refine ⟨?_, ?_, fun _ _ => kept⟩
    · intro i _ suffix _ wanted
      exact absurd wanted (noneWanted suffix)
    · rintro - ⟨i, mem, below⟩
      exact absurd below (noneBelow i mem)
  apply isRenamed_iff_of_missing noneWanted
  · rw [result]
    by_cases base : sp.base = []
    · exact iff_of_true (by simp [waitingName, base]) (reaches (.inl base))
    · simp only [waitingName, before, base, ne_eq, not_false_eq_true, and_self, if_true,
        overwrite_eq_iff]
      constructor
      · intro comparable
        exact reaches (.inr comparable)
      · intro reaches
        exact (reaches.kept before noneBelow).resolve_left base
  · rw [result]
    rfl
  · rw [result]

theorem exists_wanted_of_before (before : name < sp.name)
    (someBelow : ∃ i ∈ agent.instances, sp.remoteBase <+: i.name) :
    ∃ i ∈ agent.instances, ∃ suffix, i.name = sp.remoteBase ++ suffix ∧
      Wanted sp agent .getNext name suffix := by
  have sorted : SortedBy VariableList.name agent.instances := agent.increasing.imp le_of_lt
  cases found : agent.instances.find? fun i => decide (sp.remoteBase <+: i.name) with
  | none =>
      rcases someBelow with ⟨i, mem, below⟩
      exact absurd (decide_eq_true below) (List.find?_eq_none.mp found i mem)
  | some i =>
      have mem := List.mem_of_find?_eq_some found
      have isBelow := List.find?_some found
      rcases of_decide_eq_true isBelow with ⟨suffix, below⟩
      refine ⟨i, mem, suffix, below.symm, ⟨?_, i, mem, below.symm⟩, ?_⟩
      · exact lt_of_lt_of_le before (le_append _ _)
      · rintro suffix' ⟨-, i', mem', below'⟩
        have le := sorted.key_le_of_find? found i' mem'
          (decide_eq_true (below' ▸ List.prefix_append _ _))
        rw [← below, below'] at le
        exact not_lt.mp (mt (append_lt_append_iff_left _).mpr (not_lt_of_ge le))

theorem isRenamed_iff_of_between {i : VariableList} (before : request.requestvb.name < sp.name)
    (someBelow : ∃ i ∈ agent.instances, sp.remoteBase <+: i.name)
    (isNext : IsNext VariableList.name agent.instances
      (sentName sp request.requestvb.name) (some i))
    (answered : agent.answer .getNext
      ⟨sentName sp request.requestvb.name, asnNull, .unset 0⟩ = i)
    (apart : ¬ sp.remoteBase <+: i.name) :
    IsRenamed sp agent .getNext request (finished sp agent .getNext request) ↔
      Reaches sp agent .getNext request.requestvb.name := by
  rcases isNext with ⟨⟨mem, behind⟩, least⟩
  apply iff_of_false
  · intro isRenamed
    rcases exists_wanted_of_before before someBelow with ⟨i', mem', suffix, below, wanted⟩
    have holds := isRenamed.holds i' mem' suffix below wanted
    rw [finished_of_apart (answered ▸ apart)] at holds
    have notNull := (agent.values i' mem').2
    rw [← congrArg VariableList.type holds] at notNull
    exact absurd notNull (by simp [isNullType])
  · intro reaches
    rcases someBelow with ⟨i', mem', suffix, below⟩
    have behind' : (if sp.base = [] then request.requestvb.name else startName sp.base) <
        i.name := by
      simpa [sentName, before] using behind
    have from_base := reaches.adjacent before ⟨i', mem', suffix, below⟩ i mem behind'
    have lt : sentName sp request.requestvb.name < i'.name :=
      lt_of_lt_of_le (sentName_lt before) (below ▸ le_append _ _)
    exact apart (prefix_of_between from_base (below ▸ least i' mem' lt))

theorem isRenamed_getNext_before_iff (before : request.requestvb.name < sp.name) :
    IsRenamed sp agent .getNext request (finished sp agent .getNext request) ↔
      Reaches sp agent .getNext request.requestvb.name := by
  have sent_lt (suffix : Oid) : sentName sp request.requestvb.name < sp.remoteBase ++ suffix :=
    lt_of_lt_of_le (sentName_lt before) (le_append _ _)
  have isNext := agent.isNext_getNext (sentName sp request.requestvb.name)
  cases found : agent.instances.find? fun i => sentName sp request.requestvb.name < i.name with
  | none =>
      rw [found] at isNext
      apply isRenamed_iff_of_noneBelow before
      · rintro i mem ⟨suffix, below⟩
        exact isNext i mem (below ▸ sent_lt suffix)
      · rintro ⟨suffix, below⟩
        simp only [RemoteAgent.answer, RemoteAgent.getNext, if_true, found, Option.getD_none]
          at below
        exact absurd (sent_lt suffix) (below ▸ lt_irrefl _)
  | some i =>
      rw [found] at isNext
      have answered : agent.answer .getNext
          ⟨sentName sp request.requestvb.name, asnNull, .unset 0⟩ = i := by
        simp [RemoteAgent.answer, RemoteAgent.getNext, found]
      by_cases isBelow : sp.remoteBase <+: i.name
      · rcases isNext with ⟨⟨mem, -⟩, least⟩
        rcases isBelow with ⟨next, below⟩
        apply isRenamed_iff_of_found mem below.symm ?_ answered
        · intro _ i' mem' behind'
          exact (below ▸ le_append _ _).trans (least i' mem' behind')
        · refine ⟨⟨lt_of_lt_of_le before (le_append _ _), i, mem, below.symm⟩, ?_⟩
          rintro suffix' ⟨-, i', mem', below'⟩
          have le := least i' mem' (below' ▸ sent_lt suffix')
          rw [← below, below'] at le
          exact not_lt.mp (mt (append_lt_append_iff_left _).mpr (not_lt_of_ge le))
      · by_cases someBelow : ∃ i' ∈ agent.instances, sp.remoteBase <+: i'.name
        · exact isRenamed_iff_of_between before someBelow isNext answered isBelow
        · apply isRenamed_iff_of_noneBelow before
          · intro i' mem' below'
            exact someBelow ⟨i', mem', below'⟩
          · rwa [answered]

theorem isRenamed_finished_iff (mode_eq : mode = .get ∨ mode = .getNext)
    (asks : request.Asks sp mode) :
    IsRenamed sp agent mode request (finished sp agent mode request) ↔
      Reaches sp agent mode request.requestvb.name := by
  rcases mode_eq with rfl | rfl
  · rcases asks.range with ⟨suffix, inside, -⟩ | ⟨next, -⟩
    · exact isRenamed_get_iff inside
    · exact absurd next (by decide)
  · rcases asks.range with ⟨suffix, inside, -⟩ | ⟨-, before⟩
    · exact isRenamed_getNext_inside_iff inside
    · exact isRenamed_getNext_before_iff before

/-- The proxy renames what the agent has exactly when each request reaches its instance. -/
theorem proxied_isRenamed_iff (mode_eq : mode = .get ∨ mode = .getNext) (fits : sp.Fits agent)
    (asks : ∀ request ∈ requests, request.Asks sp mode) :
    List.Forall₂ (IsRenamed sp agent mode) requests (proxied sp agent mode requests) ↔
      ∀ request ∈ requests, Reaches sp agent mode request.requestvb.name := by
  rw [proxied_eq fits asks, List.forall₂_map_right_iff, List.forall₂_same]
  constructor
  · intro each request mem
    exact (isRenamed_finished_iff mode_eq (asks request mem)).mp (each request mem)
  · intro each request mem
    exact (isRenamed_finished_iff mode_eq (asks request mem)).mpr (each request mem)

/-- An entry for `1.3.6.1.4.1` whose instances the agent has below `1.3.6.1.2.5`. -/
def renamingProxy : SimpleProxy := ⟨[1, 3, 6, 1, 4, 1], [1, 3, 6, 1, 2, 5]⟩

def agentWithNine : RemoteAgent where
  instances := [⟨[1, 3, 6, 1, 2, 5, 7], asnInteger, .integer 9⟩]
  increasing := List.pairwise_singleton _ _
  values := by
    intro i mem
    rw [List.mem_singleton.mp mem]
    exact ⟨.integer (by decide : int32Min ≤ 9) (by decide), rfl⟩
  exception := snmpNosuchinstance
  missing := rfl

def emptyAgent : RemoteAgent where
  instances := []
  increasing := List.Pairwise.nil
  values := by simp
  exception := snmpNosuchinstance
  missing := rfl

theorem proxied_isRenamed_one :
    List.Forall₂ (IsRenamed renamingProxy agentWithNine .getNext)
      [⟨⟨[1, 3, 6], asnNull, .unset 0⟩, false, 0⟩]
      (proxied renamingProxy agentWithNine .getNext
        [⟨⟨[1, 3, 6], asnNull, .unset 0⟩, false, 0⟩]) := by
  refine (proxied_isRenamed_iff (.inr rfl) ⟨by decide, ?_⟩ ?_).mpr ?_
  · simp only [agentWithNine, List.mem_singleton, forall_eq]
    intro suffix below
    have length := congrArg List.length below
    simp [renamingProxy, SimpleProxy.remoteBase] at length
    simp [renamingProxy, maxOidLen]
    omega
  · simp only [List.mem_singleton, forall_eq]
    exact ⟨rfl, rfl, by decide, .inr ⟨rfl, by decide⟩⟩
  · simp only [List.mem_singleton, forall_eq]
    refine ⟨?_, ?_, ?_⟩
    · simp [agentWithNine, asnInteger, asnOpaqueCounter64]
    · intro _ _
      simp only [agentWithNine, List.mem_singleton, forall_eq]
      intro _
      decide
    · intro _ _
      exact .inr (.inl (by decide))

/-- A name in front of the registered range is overwritten, and lost if the agent has nothing. -/
theorem not_proxied_isRenamed :
    ¬ ∀ (sp : SimpleProxy) (agent : RemoteAgent) (mode : ProxyMode) (requests : List ProxyRequest),
      mode = .get ∨ mode = .getNext → sp.Fits agent →
      (∀ request ∈ requests, request.Asks sp mode) →
      List.Forall₂ (IsRenamed sp agent mode) requests (proxied sp agent mode requests) := by
  intro always
  have empty := always renamingProxy emptyAgent .getNext
    [⟨⟨[1, 3, 6, 1, 3], asnNull, .unset 0⟩, false, 0⟩] (.inr rfl)
    ⟨by decide, by simp [emptyAgent]⟩
    (by
      simp only [List.mem_singleton, forall_eq]
      exact ⟨rfl, rfl, by decide, .inr ⟨rfl, by decide⟩⟩)
  rcases List.forall₂_cons.mp empty with ⟨isRenamed, -⟩
  have noneWanted : ∀ suffix, ¬ Wanted renamingProxy emptyAgent
      .getNext [1, 3, 6, 1, 3] suffix := by
    rintro suffix ⟨⟨-, i, mem, -⟩, -⟩
    exact absurd mem (by simp [emptyAgent])
  exact absurd (isRenamed.missing noneWanted).1 (by decide)

end NetSnmp
