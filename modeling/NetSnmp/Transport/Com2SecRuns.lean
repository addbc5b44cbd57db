import NetSnmp.Transport.Com2SecParsing

/-!
# The first line that matches

Where the sources of the lines are read as they are meant, the lists of entries hold the rules of
the accepted lines in their order, less the entries that were removed, and a lookup answers with the
first rule that matches.
-/

namespace NetSnmp

section Rules

variable {octets : Nat} {community : List Byte} {source : InAddr octets}
  {rules : List (Addr × Com2SecRule octets)} {e : Addr}

/-- The community is the same, and the source agrees with the network on all bits of the mask. -/
def Com2SecRule.Matches (rule : Com2SecRule octets) (community : List Byte)
    (source : InAddr octets) : Prop :=
  rule.community = community ∧
    ∀ i < 8 * octets, rule.maskBit i = true → source.bit i = rule.network.bit i

instance (rule : Com2SecRule octets) (community : List Byte) (source : InAddr octets) :
    Decidable (rule.Matches community source) := inferInstanceAs (Decidable (_ ∧ _))

/-- The first rule that matches, with the address of its entry. -/
def decidingRule (rules : List (Addr × Com2SecRule octets)) (community : List Byte)
    (source : InAddr octets) : Option (Addr × Com2SecRule octets) :=
  rules.find? fun rule => rule.2.Matches community source

/-- The names of the first rule that matches; a negative one has none. -/
def ruleNames (rules : List (Addr × Com2SecRule octets)) (community : List Byte)
    (source : InAddr octets) : Option (List Byte × List Byte) :=
  (decidingRule rules community source).bind fun rule =>
    if rule.2.negate then none else some (rule.2.secName, rule.2.contextName)

theorem decidingRule_cons (rule : Addr × Com2SecRule octets) :
    decidingRule (rule :: rules) community source =
      if rule.2.Matches community source then some rule
      else decidingRule rules community source := by
  rw [decidingRule, List.find?_cons]
  by_cases matching : rule.2.Matches community source
  · rw [decide_eq_true matching, if_pos matching]
  · rw [decide_eq_false matching, if_neg matching]
    rfl

theorem decidingRule_filter (other : (decidingRule rules community source).map Prod.fst ≠ some e) :
    decidingRule (rules.filter fun rule => rule.1 ≠ e) community source =
      decidingRule rules community source := by
  induction rules with
  | nil => rfl
  | cons rule rules ih =>
      rw [decidingRule_cons] at other ⊢
      by_cases matching : rule.2.Matches community source
      · rw [if_pos matching] at other ⊢
        have stays : rule.1 ≠ e := fun same => other (congrArg some same)
        rw [List.filter_cons, if_pos (by simpa using stays), decidingRule_cons, if_pos matching]
      · rw [if_neg matching] at other ⊢
        by_cases removed : rule.1 = e
        · rw [List.filter_cons, if_neg (by simpa using removed), ih other]
        · rw [List.filter_cons, if_pos (by simpa using removed), decidingRule_cons,
            if_neg matching, ih other]

end Rules

inductive Com2SecOp {octets : Nat} (inetPton : List Byte → Option (InAddr octets)) where
  | line (line : Com2SecLine inetPton)
  | remove (e : Addr)

section Runs

variable {octets : Nat} {inetPton : List Byte → Option (InAddr octets)}

def ruleStep (rules : Addr × List (Addr × Com2SecRule octets)) (op : Com2SecOp inetPton) :
    Addr × List (Addr × Com2SecRule octets) :=
  match op with
  | .line line =>
      if line.source.Accepted then (rules.1 + 1, rules.2 ++ [(rules.1, line.rule)]) else rules
  | .remove e => (rules.1, rules.2.filter fun rule => rule.1 ≠ e)

def rulesAfter (ops : List (Com2SecOp inetPton)) : List (Addr × Com2SecRule octets) :=
  (ops.foldl ruleStep (0, [])).2

end Runs

section

variable (resolver : Resolver)

def udpStep (fuel : Nat) (list : Com2SecList 4) (op : Com2SecOp resolver.inetPton4) :
    Option (Com2SecList 4) :=
  match op with
  | .line line => some (netsnmpUdpParseSecurity resolver list line.text).1
  | .remove e => (netsnmpUdpCom2SecListRemove fuel list e).map Prod.fst

def udpRun (fuel : Nat) (ops : List (Com2SecOp resolver.inetPton4)) : Option (Com2SecList 4) :=
  ops.foldlM (udpStep resolver fuel) Com2SecList.empty

def udp6Run (lines : List (Com2SecLine resolver.inetPton6)) : Com2SecList 16 :=
  lines.foldl (fun list line => (netsnmpUdp6ParseSecurity resolver list line.text).1)
    Com2SecList.empty

end

section Holds

variable {octets : Nat} {list : Com2SecList octets}
  {rules front back : List (Addr × Com2SecRule octets)} {next : Addr}
  {entry : Com2SecEntry octets} {rule : Com2SecRule octets}

structure Com2SecEntry.Means (entry : Com2SecEntry octets) (rule : Com2SecRule octets) : Prop where
  community : entry.community = rule.community
  secName : entry.secName = rule.secName
  contextName : entry.contextName = rule.contextName
  negate : entry.negate = rule.negate
  network : entry.network = rule.network
  mask : ∀ i < 8 * octets, entry.mask.bit i = rule.maskBit i
  covered : ∀ i < 8 * octets, entry.network.bit i = true → entry.mask.bit i = true

structure HoldsRules (list : Com2SecList octets) (next : Addr)
    (rules : List (Addr × Com2SecRule octets)) : Prop where
  queue : list.queue.IsQueue (rules.map Prod.fst)
  free_eq : list.free = next
  below : ∀ rule ∈ rules, rule.1 < next
  means : ∀ rule ∈ rules, (list.entries rule.1).Means rule.2

theorem holdsRules_empty : HoldsRules (Com2SecList.empty : Com2SecList octets) 0 [] := by
  refine ⟨⟨rfl, rfl, List.nodup_nil⟩, rfl, ?_, ?_⟩
  · exact fun _ mem => by cases mem
  · exact fun _ mem => by cases mem

theorem Com2SecList.link_queue {cells : List Addr} (isQueue : list.queue.IsQueue cells) :
    (list.link entry).queue = list.queue.append list.free := by
  have last_eq := isQueue.last_eq
  rcases List.eq_nil_or_concat cells with rfl | ⟨front, last, rfl⟩
  · have first_eq : list.queue.first = none := isQueue.first_eq
    rw [List.getLast?_nil] at last_eq
    simp [link, TailQueue.append, last_eq, first_eq]
  · rw [List.concat_eq_append] at *
    rw [List.getLast?_concat] at last_eq
    have next_eq : list.queue.next last = none :=
      @TailQueue.IsQueue.next_eq list.queue front [] last isQueue
    simp [link, TailQueue.append, last_eq, next_eq]

theorem HoldsRules.link (holds : HoldsRules list next rules) (means : entry.Means rule) :
    HoldsRules (list.link entry) (next + 1) (rules ++ [(next, rule)]) := by
  have fresh : ∀ rule' ∈ rules, rule'.1 ≠ next := fun rule' mem =>
    Nat.ne_of_lt (holds.below rule' mem)
  have notMem : list.free ∉ rules.map Prod.fst := by
    rw [holds.free_eq, List.mem_map]
    rintro ⟨rule', mem, same⟩
    exact fresh rule' mem same
  refine ⟨?_, ?_, ?_, ?_⟩
  · rw [Com2SecList.link_queue holds.queue, List.map_append, List.map_singleton,
      ← holds.free_eq]
    exact holds.queue.append notMem
  · exact congrArg (· + 1) holds.free_eq
  · refine List.forall_mem_append.mpr ⟨?_, ?_⟩
    · exact fun rule' mem => Nat.lt_succ_of_lt (holds.below rule' mem)
    · exact List.forall_mem_singleton.mpr (Nat.lt_succ_self next)
  · refine List.forall_mem_append.mpr ⟨?_, ?_⟩
    · intro rule' mem
      have kept : (list.link entry).entries rule'.1 = list.entries rule'.1 := by
        apply Function.update_of_ne
        rw [holds.free_eq]
        exact fresh rule' mem
      rw [kept]
      exact holds.means rule' mem
    · refine List.forall_mem_singleton.mpr ?_
      have here : (list.link entry).entries next = entry := by
        rw [← holds.free_eq]
        exact Function.update_self _ _ _
      rw [here]
      exact means

theorem HoldsRules.line {inetPton : List Byte → Option (InAddr octets)}
    (holds : HoldsRules list next rules) {line : Com2SecLine inetPton}
    {parsed : Com2SecList octets × List String} (isParsed : LineParsed list line parsed) :
    HoldsRules parsed.1 (ruleStep (next, rules) (.line line)).1
      (ruleStep (next, rules) (.line line)).2 := by
  rw [ruleStep]
  by_cases accepted : line.source.Accepted
  · rcases isParsed.accepted accepted with ⟨mask, bits, rfl⟩
    rw [if_pos accepted]
    apply holds.link
    refine ⟨rfl, rfl, rfl, rfl, rfl, bits, fun i inside one => ?_⟩
    exact (bits i inside).trans (accepted.2 i inside one)
  · rcases isParsed.rejected accepted with ⟨messages, rfl⟩
    rw [if_neg accepted]
    exact holds

theorem findCom2Sec_none {next : Addr → Option Addr} {e : Addr} {cells : List Addr}
    {c : Option Addr} (chain : TailQueue.Chain next c cells none) (notMem : e ∉ cells) {fuel : Nat}
    (enough : cells.length < fuel) (p : Option Addr) : findCom2Sec next e fuel p c = some none := by
  induction cells generalizing c fuel p with
  | nil =>
      rcases Nat.exists_eq_add_of_lt enough with ⟨fuel, rfl⟩
      cases chain
      rfl
  | cons cell cells ih =>
      rcases Nat.exists_eq_add_of_lt (Nat.zero_lt_of_lt enough) with ⟨fuel, rfl⟩
      rcases chain with ⟨rfl, chain⟩
      rw [List.mem_cons, not_or] at notMem
      rw [findCom2Sec, if_neg notMem.1]
      apply ih chain notMem.2
      simp only [List.length_cons] at enough
      omega

theorem findCom2Sec_some {next : Addr → Option Addr} {e : Addr} {front back : List Addr}
    {c : Option Addr} (chain : TailQueue.Chain next c (front ++ e :: back) none)
    (notMem : e ∉ front) {fuel : Nat} (enough : front.length < fuel) (p : Option Addr) :
    findCom2Sec next e fuel p c = some (some (front.getLast?.or p)) := by
  induction front generalizing c fuel p with
  | nil =>
      rcases Nat.exists_eq_add_of_lt enough with ⟨fuel, rfl⟩
      rcases chain with ⟨rfl, chain⟩
      rw [findCom2Sec, if_pos rfl]
      rfl
  | cons cell front ih =>
      rcases Nat.exists_eq_add_of_lt (Nat.zero_lt_of_lt enough) with ⟨fuel, rfl⟩
      rcases chain with ⟨rfl, chain⟩
      rw [List.mem_cons, not_or] at notMem
      rw [findCom2Sec, if_neg notMem.1, ih chain notMem.2 (by
        simp only [List.length_cons] at enough
        omega)]
      cases front with
      | nil => rfl
      | cons cell' front =>
          rw [List.getLast?_cons_cons]
          cases last_eq : (cell' :: front).getLast? with
          | none => nomatch List.getLast?_eq_none_iff.mp last_eq
          | some last => rfl

end Holds

theorem HoldsRules.remove {list : Com2SecList 4} {rules : List (Addr × Com2SecRule 4)} {next : Addr}
    (holds : HoldsRules list next rules) (e : Addr) {fuel : Nat} (enough : rules.length < fuel) :
    ∃ list', (netsnmpUdpCom2SecListRemove fuel list e).map Prod.fst = some list' ∧
      HoldsRules list' next (rules.filter fun rule => rule.1 ≠ e) := by
  have enough' : (rules.map Prod.fst).length < fuel := by rwa [List.length_map]
  have chain := holds.queue.chain
  by_cases mem : e ∈ rules.map Prod.fst
  · rcases List.mem_map.mp mem with ⟨rule, memRule, rfl⟩
    rcases List.append_of_mem memRule with ⟨front, back, rfl⟩
    have isQueue := holds.queue
    rw [List.map_append, List.map_cons] at isQueue enough'
    have nodup := List.nodup_cons.mp (List.nodup_middle.mp isQueue.nodup)
    have notFront : rule.1 ∉ front.map Prod.fst := fun inFront =>
      nodup.1 (List.mem_append_left _ inFront)
    have rest_eq : (front ++ rule :: back).filter (fun rule' => rule'.1 ≠ rule.1) =
        front ++ back := by
      have others : ∀ rule' ∈ front ++ back, decide (rule'.1 ≠ rule.1) = true := by
        intro rule' mem'
        apply decide_eq_true
        intro same
        apply nodup.1
        rw [← same, ← List.map_append]
        exact List.mem_map_of_mem mem'
      rw [List.filter_append, List.filter_cons_of_neg (by simp), ← List.filter_append,
        List.filter_eq_self.mpr others]
    have inFront : (front.map Prod.fst).length < fuel := by
      rw [List.length_append] at enough'
      omega
    have found := findCom2Sec_some isQueue.chain notFront inFront none
    have removed := isQueue.remove
    rw [Option.or_none] at found
    refine ⟨_, by rw [netsnmpUdpCom2SecListRemove, found]; rfl, ?_⟩
    rw [rest_eq]
    refine ⟨⟨?_, ?_, ?_⟩, holds.free_eq, ?_, ?_⟩
    · rw [List.map_append]
      exact removed.chain.update_of_not_mem nodup.1 none
    · rw [List.map_append]
      exact removed.last_eq
    · rw [List.map_append]
      exact removed.nodup
    · intro rule' mem'
      apply holds.below
      rcases List.mem_append.mp mem' with inFront | inBack
      · exact List.mem_append_left _ inFront
      · exact List.mem_append_right _ (List.mem_cons_of_mem _ inBack)
    · intro rule' mem'
      apply holds.means
      rcases List.mem_append.mp mem' with inFront | inBack
      · exact List.mem_append_left _ inFront
      · exact List.mem_append_right _ (List.mem_cons_of_mem _ inBack)
  · have found := findCom2Sec_none chain mem enough' none
    have rest_eq : rules.filter (fun rule => rule.1 ≠ e) = rules := by
      apply List.filter_eq_self.mpr
      intro rule memRule
      apply decide_eq_true
      rintro rfl
      exact mem (List.mem_map_of_mem memRule)
    refine ⟨list, by rw [netsnmpUdpCom2SecListRemove, found]; rfl, ?_⟩
    rw [rest_eq]
    exact holds

section Lookup

variable {octets : Nat} {list : Com2SecList octets} {rules : List (Addr × Com2SecRule octets)}
  {next : Addr} {community : List Byte} {source : InAddr octets}

def ruleAnswer (rules : List (Addr × Com2SecRule octets)) (community : List Byte)
    (source : InAddr octets) : SecNameFound :=
  ⟨if rules.isEmpty then 0 else 1, ruleNames rules community source⟩

theorem Com2SecEntry.Means.matches_iff {entry : Com2SecEntry octets} {rule : Com2SecRule octets}
    (means : entry.Means rule) :
    (community.length = entry.community.length ∧
      memcmp community entry.community community.length = 0 ∧
        source.agrees entry.mask entry.network = true) ↔ rule.Matches community source := by
  have same_iff : (community.length = entry.community.length ∧
      memcmp community entry.community community.length = 0) ↔ rule.community = community := by
    rw [memcmp_eq_zero_iff, List.take_length, means.community]
    constructor
    · rintro ⟨length_eq, same⟩
      rw [length_eq, List.take_length] at same
      exact same.symm
    · rintro rfl
      exact ⟨rfl, (List.take_length).symm⟩
  rw [← and_assoc, same_iff, InAddr.agrees_iff means.covered, means.network]
  apply and_congr_right
  intro _
  apply forall₂_congr
  intro i inside
  rw [means.mask i inside]

theorem findSecName_eq {c : Option Addr}
    (chain : TailQueue.Chain list.queue.next c (rules.map Prod.fst) none)
    {matching : Com2SecEntry octets → Bool}
    (same : ∀ rule ∈ rules, matching (list.entries rule.1) =
      decide (rule.2.Matches community source)) {fuel : Nat} (enough : rules.length < fuel) :
    findSecName list matching fuel c =
      some ((decidingRule rules community source).map fun rule => list.entries rule.1) := by
  induction rules generalizing c fuel with
  | nil =>
      rcases Nat.exists_eq_add_of_lt enough with ⟨fuel, rfl⟩
      cases chain
      rfl
  | cons rule rules ih =>
      rcases Nat.exists_eq_add_of_lt (Nat.zero_lt_of_lt enough) with ⟨fuel, rfl⟩
      rcases chain with ⟨rfl, chain⟩
      rw [findSecName, same rule List.mem_cons_self, decidingRule_cons]
      by_cases here : rule.2.Matches community source
      · rw [if_pos (decide_eq_true here), if_pos here]
        rfl
      · rw [if_neg (by simpa using here), if_neg here]
        apply ih chain
        · exact fun rule' mem => same rule' (List.mem_cons_of_mem _ mem)
        · simp only [List.length_cons] at enough
          omega

theorem HoldsRules.getSecName (holds : HoldsRules list next rules)
    {matching : InAddr octets → Com2SecEntry octets → Bool}
    (matching_eq : ∀ c, matching source c = decide (community.length = c.community.length ∧
      memcmp community c.community community.length = 0 ∧ source.agrees c.mask c.network = true))
    {fuel : Nat} (enough : rules.length < fuel) :
    NetSnmp.getSecName matching fuel list (some source) =
      some (ruleAnswer rules community source) := by
  have chain := holds.queue.chain
  cases first : list.queue.first with
  | none =>
      rw [first] at chain
      cases rules with
      | nil =>
          simp only [NetSnmp.getSecName, first]
          rfl
      | cons rule rules => nomatch chain.1
  | some cell =>
      cases rules with
      | nil =>
          rw [first] at chain
          nomatch chain
      | cons rule rules =>
          have same : ∀ rule' ∈ rule :: rules, matching source (list.entries rule'.1) =
              decide (rule'.2.Matches community source) := by
            intro rule' mem
            rw [matching_eq]
            exact decide_eq_decide.mpr (holds.means rule' mem).matches_iff
          have found := findSecName_eq chain same enough
          rw [first] at found
          simp only [NetSnmp.getSecName, first, found, Option.map_some, ruleAnswer, ruleNames,
            List.isEmpty_cons, Bool.false_eq_true, if_false]
          cases deciding : decidingRule (rule :: rules) community source with
          | none => rfl
          | some rule' =>
              have means := holds.means rule' (List.mem_of_find?_eq_some deciding)
              rw [Option.map_some, Option.bind_some, Com2SecEntry.found, means.negate,
                means.secName, means.contextName]

end Lookup

section

variable (resolver : Resolver)

theorem udpRun_holds (ops : List (Com2SecOp resolver.inetPton4))
    (meant : ∀ line, .line line ∈ ops → line.source.ReadAsMeant 270 resolver.defaultHosts4)
    {fuel : Nat} (enough : ops.length < fuel) :
    ∃ list next, udpRun resolver fuel ops = some list ∧
      HoldsRules list next (rulesAfter ops) ∧ (rulesAfter ops).length ≤ ops.length := by
  have runs : ∀ (ops : List (Com2SecOp resolver.inetPton4)) (list : Com2SecList 4) (next : Addr)
      (rules : List (Addr × Com2SecRule 4)), HoldsRules list next rules →
      (∀ line, .line line ∈ ops → line.source.ReadAsMeant 270 resolver.defaultHosts4) →
      rules.length + ops.length < fuel →
      ∃ list' , ops.foldlM (udpStep resolver fuel) list = some list' ∧
        HoldsRules list' (ops.foldl ruleStep (next, rules)).1
          (ops.foldl ruleStep (next, rules)).2 ∧
        (ops.foldl ruleStep (next, rules)).2.length ≤ rules.length + ops.length := by
    intro ops
    induction ops with
    | nil => exact fun list next rules holds _ _ => ⟨list, rfl, holds, le_rfl⟩
    | cons op ops ih =>
        intro list next rules holds meant enough
        rw [List.length_cons] at enough
        have step : ∃ list', udpStep resolver fuel list op = some list' ∧
            HoldsRules list' (ruleStep (next, rules) op).1 (ruleStep (next, rules) op).2 ∧
              (ruleStep (next, rules) op).2.length ≤ rules.length + 1 := by
          cases op with
          | line line =>
              refine ⟨_, rfl, ?_, ?_⟩
              · exact holds.line ((netsnmpUdpParseSecurity_line_iff resolver list line).mpr
                  (meant line List.mem_cons_self))
              · rw [ruleStep]
                split
                · rw [List.length_append, List.length_singleton]
                · exact Nat.le_succ _
          | remove e =>
              rcases @HoldsRules.remove list rules next holds e fuel (by omega) with
                ⟨list', removed, holds'⟩
              refine ⟨list', removed, holds', ?_⟩
              exact (List.length_filter_le _ _).trans (Nat.le_succ _)
        rcases step with ⟨list', step_eq, holds', few⟩
        rcases ih list' _ _ holds' (fun line mem => meant line (List.mem_cons_of_mem _ mem))
          (by omega) with ⟨list'', rest_eq, holds'', few'⟩
        refine ⟨list'', ?_, holds'', ?_⟩
        · rw [List.foldlM_cons, step_eq]
          exact rest_eq
        · rw [List.length_cons]
          exact few'.trans (by omega)
  rcases runs ops Com2SecList.empty 0 [] holdsRules_empty meant (by simpa using enough) with
    ⟨list, run_eq, holds, few⟩
  rw [List.length_nil, Nat.zero_add] at few
  exact ⟨list, _, run_eq, holds, few⟩

theorem udp6Run_holds (lines : List (Com2SecLine resolver.inetPton6))
    (meant : ∀ line ∈ lines, line.source.ReadAsMeant 300 resolver.defaultHosts6) :
    ∃ next, HoldsRules (udp6Run resolver lines) next (rulesAfter (lines.map .line)) := by
  have runs : ∀ (lines : List (Com2SecLine resolver.inetPton6)) (list : Com2SecList 16)
      (next : Addr) (rules : List (Addr × Com2SecRule 16)), HoldsRules list next rules →
      (∀ line ∈ lines, line.source.ReadAsMeant 300 resolver.defaultHosts6) →
      ∃ next', HoldsRules (lines.foldl (fun list line =>
          (netsnmpUdp6ParseSecurity resolver list line.text).1) list) next'
        ((lines.map Com2SecOp.line).foldl ruleStep (next, rules)).2 := by
    intro lines
    induction lines with
    | nil => exact fun list next rules holds _ => ⟨next, holds⟩
    | cons line lines ih =>
        intro list next rules holds meant
        rw [List.foldl_cons, List.map_cons, List.foldl_cons]
        have parsed := (netsnmpUdp6ParseSecurity_line_iff resolver list line).mpr
          (meant line List.mem_cons_self)
        exact ih _ _ _ (holds.line parsed) fun line' mem => meant line' (List.mem_cons_of_mem _ mem)
  exact runs lines Com2SecList.empty 0 [] holdsRules_empty meant

theorem netsnmpUdpGetSecName_settles {ops : List (Com2SecOp resolver.inetPton4)}
    (meant : ∀ line, .line line ∈ ops → line.source.ReadAsMeant 270 resolver.defaultHosts4)
    (community : List Byte) (source : InAddr 4) :
    Settles (fun fuel => (udpRun resolver fuel ops).bind fun list =>
        netsnmpUdpGetSecName fuel list community (some source))
      (ruleAnswer (rulesAfter ops) community source) := by
  refine ⟨ops.length + 1, fun fuel enough => ?_⟩
  rcases udpRun_holds resolver ops meant enough with ⟨list, next, run_eq, holds, few⟩
  change (udpRun resolver fuel ops).bind _ = _
  rw [run_eq, Option.bind_some]
  refine holds.getSecName (fun c => ?_) (by omega)
  simp only [Bool.decide_and, Bool.decide_eq_true, Bool.and_assoc]

theorem netsnmpUdp6GetSecName_settles {lines : List (Com2SecLine resolver.inetPton6)}
    (meant : ∀ line ∈ lines, line.source.ReadAsMeant 300 resolver.defaultHosts6)
    (community : List Byte) (source : InAddr 16) :
    Settles (fun fuel => netsnmpUdp6GetSecName fuel (udp6Run resolver lines) community
        (some source))
      (ruleAnswer (rulesAfter (lines.map .line)) community source) := by
  rcases udp6Run_holds resolver lines meant with ⟨next, holds⟩
  refine ⟨(rulesAfter (lines.map Com2SecOp.line)).length + 1, fun fuel enough => ?_⟩
  refine holds.getSecName (fun c => ?_) enough
  rw [InAddr.agrees_eq_all]
  simp only [Bool.decide_and, Bool.decide_eq_true, Bool.and_assoc]

/-- A line of either family is parsed as it is meant exactly when its source is read so. After any
such lines and removals a lookup answers by the first rule that matches, for both families; and a
removal leaves the names where another entry, or none, decided. -/
theorem com2Sec_firstMatch_iff :
    (∀ (list : Com2SecList 4) (line : Com2SecLine resolver.inetPton4),
      LineParsed list line (netsnmpUdpParseSecurity resolver list line.text) ↔
        line.source.ReadAsMeant 270 resolver.defaultHosts4) ∧
    (∀ (list : Com2SecList 16) (line : Com2SecLine resolver.inetPton6),
      LineParsed list line (netsnmpUdp6ParseSecurity resolver list line.text) ↔
        line.source.ReadAsMeant 300 resolver.defaultHosts6) ∧
    (∀ ops : List (Com2SecOp resolver.inetPton4),
      (∀ line, .line line ∈ ops → line.source.ReadAsMeant 270 resolver.defaultHosts4) →
      (∀ (community : List Byte) (source : InAddr 4),
        Settles (fun fuel => (udpRun resolver fuel ops).bind fun list =>
            netsnmpUdpGetSecName fuel list community (some source))
          (ruleAnswer (rulesAfter ops) community source)) ∧
      (∀ (e : Addr) (community : List Byte) (source : InAddr 4),
        (decidingRule (rulesAfter ops) community source).map Prod.fst ≠ some e →
        Settles (fun fuel => ((udpRun resolver fuel (ops ++ [.remove e])).bind fun list =>
            netsnmpUdpGetSecName fuel list community (some source)).map SecNameFound.names)
          (ruleNames (rulesAfter ops) community source))) ∧
    (∀ lines : List (Com2SecLine resolver.inetPton6),
      (∀ line ∈ lines, line.source.ReadAsMeant 300 resolver.defaultHosts6) →
      ∀ (community : List Byte) (source : InAddr 16),
      Settles (fun fuel => netsnmpUdp6GetSecName fuel (udp6Run resolver lines) community
          (some source))
        (ruleAnswer (rulesAfter (lines.map .line)) community source)) := by
  refine ⟨netsnmpUdpParseSecurity_line_iff resolver, netsnmpUdp6ParseSecurity_line_iff resolver,
    fun ops meant => ⟨netsnmpUdpGetSecName_settles resolver meant, ?_⟩,
    fun lines meant => netsnmpUdp6GetSecName_settles resolver meant⟩
  intro e community source other
  have removed : rulesAfter (ops ++ [.remove e]) =
      (rulesAfter ops).filter fun rule => rule.1 ≠ e := by
    rw [rulesAfter, List.foldl_append]
    rfl
  have names_eq : ruleNames (rulesAfter ops) community source =
      (ruleAnswer (rulesAfter (ops ++ [.remove e])) community source).names := by
    rw [removed, ruleAnswer, ruleNames, ruleNames, decidingRule_filter other]
  have meant' : ∀ line, .line line ∈ ops ++ [.remove e] →
      line.source.ReadAsMeant 270 resolver.defaultHosts4 := by
    intro line mem
    rcases List.mem_append.mp mem with old | new
    · exact meant line old
    · cases List.mem_singleton.mp new
  rw [names_eq]
  exact (netsnmpUdpGetSecName_settles resolver meant' community source).map SecNameFound.names

end

/-- `10.0.0.0` -/
def tenText : List Byte := [0x31, 0x30, 0x2e, 0x30, 0x2e, 0x30, 0x2e, 0x30]

/-- `0.0.0.0` -/
def zeroText : List Byte := [0x30, 0x2e, 0x30, 0x2e, 0x30, 0x2e, 0x30]

def tenResolver : Resolver where
  inetPton4 text :=
    if text = tenText then some #v[10, 0, 0, 0]
    else if text = zeroText then some InAddr.zero else none
  inetPton6 _ := none
  netsnmpGethostbynameV4 _ := none
  netsnmpGetaddrinfo _ := .error "Name or service not known"
  netgroup _ := none

/-- `public` -/
def publicText : List Byte := [0x70, 0x75, 0x62, 0x6c, 0x69, 0x63]

/-- A line for the community `public`, of which the first word is one character. -/
def publicLine (secName : Byte) (source : Com2SecSource tenResolver.inetPton4)
    (words : SpellsWords (some ([secName, 0x20] ++ source.text ++ 0x20 :: publicText))
      [[secName], source.text, publicText]) : Com2SecLine tenResolver.inetPton4 where
  text := [secName, 0x20] ++ source.text ++ 0x20 :: publicText
  context := none
  secName := [secName]
  source := source
  community := publicText
  words := words
  context_short context given := by cases given
  named := List.cons_ne_nil _ _
  name_short := by simp [vacmMaxString]
  plain := by simp [contextOption]
  nonempty := by simp [publicText]
  community_short := by simp [publicText, communityMaxLen]
  configured := by simp [publicText, exampleCommunity]

/-- `10.0.0.0/8` -/
def tenSource : Com2SecSource tenResolver.inetPton4 where
  negate := false
  network := some
    ⟨tenText, #v[10, 0, 0, 0], rfl, List.all_eq_true.mp rfl,
      ⟨0x2e, by simp [tenText], .inl rfl⟩, by decide +kernel⟩
  mask := .leading [0x38] ⟨List.cons_ne_nil _ _, List.all_eq_true.mp rfl⟩

def defaultSource : Com2SecSource tenResolver.inetPton4 := ⟨false, none, .whole⟩

/-- `s 10.0.0.0/8 public` -/
def tenLine : Com2SecLine tenResolver.inetPton4 :=
  publicLine 0x73 tenSource (by refine ⟨?_, ?_, ?_, trivial⟩ <;> decide +kernel)

/-- `t default public` -/
def defaultLine : Com2SecLine tenResolver.inetPton4 :=
  publicLine 0x74 defaultSource (by refine ⟨?_, ?_, ?_, trivial⟩ <;> decide +kernel)

theorem com2Sec_firstMatch_ten :
    (∀ source : InAddr 4, Settles (fun fuel =>
        (udpRun tenResolver fuel [.line tenLine, .line defaultLine]).bind fun list =>
          netsnmpUdpGetSecName fuel list publicText (some source))
      (ruleAnswer (rulesAfter [.line tenLine, .line defaultLine]) publicText source)) ∧
    Settles (fun fuel =>
      ((udpRun tenResolver fuel [.line tenLine, .line defaultLine, .remove 0]).bind fun list =>
        netsnmpUdpGetSecName fuel list publicText (some #v[11, 1, 2, 3])).map SecNameFound.names)
      (some ([0x74], [])) := by
  have meant : ∀ line, .line line ∈ [Com2SecOp.line tenLine, .line defaultLine] →
      line.source.ReadAsMeant 270 tenResolver.defaultHosts4 := by
    intro line mem
    simp only [List.mem_cons, Com2SecOp.line.injEq, List.not_mem_nil, or_false] at mem
    rcases mem with rfl | rfl
    · exact .inl (by decide +kernel)
    · exact .inl ⟨rfl, rfl⟩
  rcases (com2Sec_firstMatch_iff tenResolver).2.2.1 _ meant with ⟨lookups, removals⟩
  have answer := removals 0 publicText #v[11, 1, 2, 3] (by decide +kernel)
  have names_eq : ruleNames (rulesAfter [.line tenLine, .line defaultLine]) publicText
      #v[11, 1, 2, 3] = some ([0x74], []) := by decide +kernel
  rw [names_eq] at answer
  exact ⟨lookups publicText, answer⟩

/-- `0.0.0.0/32`, with 262 zeros in front of the number. -/
def longSource : Com2SecSource tenResolver.inetPton4 where
  negate := false
  network := some
    ⟨zeroText, InAddr.zero, rfl, List.all_eq_true.mp rfl,
      ⟨0x2e, by simp [zeroText], .inl rfl⟩, by decide +kernel⟩
  mask := .leading (List.replicate 262 0x30 ++ [0x33, 0x32])
    ⟨List.cons_ne_nil _ _, List.all_eq_true.mp (by decide +kernel)⟩

def longLine : Com2SecLine tenResolver.inetPton4 :=
  publicLine 0x73 longSource (by refine ⟨?_, ?_, ?_, trivial⟩ <;> decide +kernel)

/-- The number is cut off, and the line is for all sources. -/
theorem not_com2Sec_firstMatch_long :
    ¬ ∀ (resolver : Resolver) (ops : List (Com2SecOp resolver.inetPton4)) (community : List Byte)
      (source : InAddr 4), Settles (fun fuel => (udpRun resolver fuel ops).bind fun list =>
          netsnmpUdpGetSecName fuel list community (some source))
        (ruleAnswer (rulesAfter ops) community source) := by
  intro firstMatch
  have meant := firstMatch tenResolver [.line longLine] publicText #v[1, 2, 3, 4]
  have links := netsnmpUdpParseSecurity_links tenResolver Com2SecList.empty longLine
    (by rintro ⟨wrong, -⟩; cases wrong)
  have covered : ∀ host ∈ longLine.source.hostsOf tenResolver.defaultHosts4,
      (longLine.source.cut 270).mask.Covers host := by
    intro host mem
    cases List.mem_singleton.mp mem
    decide +kernel
  rcases links.linked (List.cons_ne_nil _ _) covered with ⟨m, bits, -, linked⟩
  have none_of_mask : ∀ i < 8 * 4, (longLine.source.cut 270).mask.maskBit i = false := by
    decide +kernel
  have means : (longLine.entry InAddr.zero m).Means
      { longLine.rule with maskBit := fun _ => false } :=
    ⟨rfl, rfl, rfl, rfl, rfl, fun i inside => (bits i inside).trans (none_of_mask i inside),
      fun i inside one => absurd one (InAddr.not_bit_zero inside)⟩
  have holds := holdsRules_empty.link means
  have answered : Settles (fun fuel => (udpRun tenResolver fuel [.line longLine]).bind fun list =>
      netsnmpUdpGetSecName fuel list publicText (some #v[1, 2, 3, 4])) ⟨1, some ([0x73], [])⟩ := by
    refine ⟨2, fun fuel enough => ?_⟩
    have ran : udpRun tenResolver fuel [.line longLine] =
        some (Com2SecList.empty.link (longLine.entry InAddr.zero m)) := by
      have parsed_eq := linked InAddr.zero rfl
      show some (netsnmpUdpParseSecurity tenResolver Com2SecList.empty longLine.text).1 = _
      rw [parsed_eq]
    change (udpRun tenResolver fuel [.line longLine]).bind _ = _
    have answer : ruleAnswer ([] ++ [(0, { longLine.rule with maskBit := fun _ => false })])
        publicText #v[1, 2, 3, 4] = ⟨1, some ([0x73], [])⟩ := by decide +kernel
    rw [ran, Option.bind_some, ← answer]
    refine holds.getSecName (fun c => ?_) enough
    simp only [Bool.decide_and, Bool.decide_eq_true, Bool.and_assoc]
  have same := answered.unique meant
  exact absurd same (by decide +kernel)

end NetSnmp
