import NetSnmp.Transport.Com2SecLines

/-!
# What the parsers make of complete lines

A line puts the entries for the addresses of its source behind the list, or leaves the list as it
is. It is the entry that the line is meant to have exactly when the source is read as it is meant.
-/

namespace NetSnmp

/-- A line that is accepted puts its entry behind the list, and another one leaves the list as it
is. -/
structure LineParsed {octets : Nat} {inetPton : List Byte → Option (InAddr octets)}
    (list : Com2SecList octets) (line : Com2SecLine inetPton)
    (parsed : Com2SecList octets × List String) : Prop where
  accepted : line.source.Accepted → ∃ mask : InAddr octets,
    (∀ i < 8 * octets, mask.bit i = line.source.maskBit i) ∧
      parsed = (list.link (line.entry line.source.value mask), [])
  rejected : ¬ line.source.Accepted → ∃ messages, parsed = (list, messages)

/-- There is a new entry for each of the addresses if the mask covers all of them, and it is the one
for the address if there is only one. -/
structure LinksHosts {octets : Nat} {inetPton : List Byte → Option (InAddr octets)}
    (list : Com2SecList octets) (line : Com2SecLine inetPton) (hosts : List (InAddr octets))
    (mask : SourceMask inetPton) (parsed : Com2SecList octets × List String) : Prop where
  linked : hosts ≠ [] → (∀ host ∈ hosts, mask.Covers host) → ∃ m : InAddr octets,
    (∀ i < 8 * octets, m.bit i = mask.maskBit i) ∧ parsed.1.free = list.free + hosts.length ∧
      ∀ host, hosts = [host] → parsed = (list.link (line.entry host m), [])
  rejected : ¬ (hosts ≠ [] ∧ ∀ host ∈ hosts, mask.Covers host) →
    ∃ messages, parsed = (list, messages)

section Source

variable {octets : Nat} {inetPton : List Byte → Option (InAddr octets)}

theorem free_foldl_link (list : Com2SecList octets) (hosts : List (InAddr octets))
    (entry : InAddr octets → Com2SecEntry octets) :
    (hosts.foldl (fun list host => list.link (entry host)) list).free =
      list.free + hosts.length := by
  induction hosts generalizing list with
  | nil => rfl
  | cons host hosts ih =>
      rw [List.foldl_cons, ih, List.length_cons, Nat.add_comm hosts.length, ← Nat.add_assoc]
      rfl

theorem link_inj {list : Com2SecList octets} {entry entry' : Com2SecEntry octets}
    (same : list.link entry = list.link entry') : entry = entry' := by
  have entries_eq := congrArg (fun linked => linked.entries list.free) same
  simpa [Com2SecList.link] using entries_eq

theorem InAddr.mismatch_iff_covers {mask : SourceMask inetPton} {a m : InAddr octets}
    (inRange : mask.inRange = true) (bits : ∀ i < 8 * octets, m.bit i = mask.maskBit i) :
    a.mismatch m = false ↔ mask.Covers a := by
  rw [InAddr.mismatch_eq_false_iff, SourceMask.Covers, and_iff_right inRange]
  apply forall₂_congr
  intro i inside
  rw [bits i inside]

theorem SourceMask.strmask_cases (mask : SourceMask inetPton) :
    (mask = whole ∧ mask.strmask = none) ∨
      ∃ c rest, mask.strmask = some (c :: rest) := by
  cases mask with
  | whole => exact .inl ⟨rfl, rfl⟩
  | leading digits isNumber =>
      right
      cases digits with
      | nil => exact absurd rfl isNumber.1
      | cons c rest => exact ⟨c, rest, rfl⟩
  | given mask =>
      right
      rcases mask.head with ⟨c, rest, text_eq, -⟩
      exact ⟨c, rest, congrArg some text_eq⟩

variable {list : Com2SecList octets} {line : Com2SecLine inetPton} {hosts : List (InAddr octets)}
  {mask : SourceMask inetPton} {parsed : Com2SecList octets × List String}

theorem LinksHosts.lineParsed_iff (links : LinksHosts list line hosts mask parsed) :
    LineParsed list line parsed ↔
      (line.source.Accepted → hosts = [line.source.value] ∧ mask.Covers line.source.value ∧
        ∀ i < 8 * octets, mask.maskBit i = line.source.maskBit i) ∧
      (¬ line.source.Accepted → ¬ (hosts ≠ [] ∧ ∀ host ∈ hosts, mask.Covers host)) := by
  constructor
  · intro isParsed
    constructor
    · intro accepted
      rcases isParsed.accepted accepted with ⟨m, bits, parsed_eq⟩
      by_cases covered : hosts ≠ [] ∧ ∀ host ∈ hosts, mask.Covers host
      · rcases links.linked covered.1 covered.2 with ⟨m', bits', free_eq, linked⟩
        rw [parsed_eq] at free_eq
        have one : hosts.length = 1 := (Nat.add_left_cancel free_eq).symm
        rcases List.length_eq_one_iff.mp one with ⟨host, rfl⟩
        have entry_eq := link_inj (Prod.mk.inj (parsed_eq.symm.trans (linked host rfl))).1
        simp only [Com2SecLine.entry, Com2SecEntry.mk.injEq] at entry_eq
        rcases entry_eq with ⟨-, -, rfl, rfl, -⟩
        refine ⟨rfl, covered.2 _ (List.mem_singleton_self _), fun i inside => ?_⟩
        rw [← bits i inside, bits' i inside]
      · rcases links.rejected covered with ⟨messages, rejected_eq⟩
        have free_eq := congrArg (fun parsed => parsed.1.free) (parsed_eq.symm.trans rejected_eq)
        exact absurd free_eq (Nat.succ_ne_self list.free)
    · rintro rejected ⟨nonempty, covered⟩
      rcases isParsed.rejected rejected with ⟨messages, parsed_eq⟩
      rcases links.linked nonempty covered with ⟨m, -, free_eq, -⟩
      rw [parsed_eq] at free_eq
      exact nonempty (List.length_eq_zero_iff.mp (Nat.left_eq_add.mp free_eq))
  · rintro ⟨whenAccepted, whenRejected⟩
    constructor
    · intro accepted
      rcases whenAccepted accepted with ⟨rfl, covered, same⟩
      rcases links.linked (List.cons_ne_nil _ _) (by simpa using covered) with ⟨m, bits, -, linked⟩
      exact ⟨m, fun i inside => (bits i inside).trans (same i inside), linked _ rfl⟩
    · intro rejected
      exact links.rejected (whenRejected rejected)

theorem prefix_bits_iff {n n' : Nat} (inRange : n ≤ 8 * octets) (inRange' : n' ≤ 8 * octets) :
    (∀ i < 8 * octets, decide (i < n') = decide (i < n)) ↔ n' = n := by
  constructor
  · intro same
    rcases lt_trichotomy n' n with lt | same' | gt
    · have here := same n' (by omega)
      rw [decide_eq_decide] at here
      omega
    · exact same'
    · have here := same n (by omega)
      rw [decide_eq_decide] at here
      omega
  · rintro rfl i -
    rfl

theorem SourceMask.covers_leading_iff {digits : List Byte}
    {isNumber : digits ≠ [] ∧ ∀ c ∈ digits, isdigit c = true} {a : InAddr octets} :
    (leading digits isNumber : SourceMask inetPton).Covers a ↔
      digitsValue digits ≤ 8 * octets ∧ a.Within (digitsValue digits) := by
  simp only [Covers, inRange, maskBit, decide_eq_true_eq]
  rfl

theorem InAddr.within_zero (n : Nat) : (InAddr.zero : InAddr octets).Within n :=
  fun _ inside one => absurd one (InAddr.not_bit_zero inside)

theorem SourceMask.covers_zero (inRange : mask.inRange = true) : mask.Covers InAddr.zero :=
  ⟨inRange, fun _ inside one => absurd one (InAddr.not_bit_zero inside)⟩

theorem SourceMask.readFor_iff {room : Nat} (large : 0 < room) (network : InAddr octets) :
    mask.ReadFor room network ↔
      (mask.Covers network → (mask.cut room).Covers network ∧
        ∀ i < 8 * octets, (mask.cut room).maskBit i = mask.maskBit i) ∧
      (¬ mask.Covers network → ¬ (mask.cut room).Covers network) := by
  cases mask with
  | whole => exact iff_of_true trivial ⟨fun covers => ⟨covers, fun _ _ => rfl⟩, id⟩
  | given mask => exact iff_of_true trivial ⟨fun covers => ⟨covers, fun _ _ => rfl⟩, id⟩
  | leading digits isNumber =>
      rcases @cut_leading octets inetPton digits isNumber room large with ⟨isNumber', cut_eq⟩
      have less := digitsValue_take_le digits room
      rw [cut_eq, covers_leading_iff, covers_leading_iff, ReadFor]
      simp only [maskBit]
      constructor
      · rintro (same | exceeds | ⟨outside, rejected⟩)
        · simp [same]
        · exact ⟨fun accepted => by omega, fun _ accepted => by omega⟩
        · refine ⟨fun accepted => ?_, fun _ accepted => outside accepted.2⟩
          rcases rejected with exceeds | outside'
          · omega
          · exact absurd accepted.2 outside'
      · rintro ⟨whenAccepted, whenRejected⟩
        by_cases accepted : digitsValue digits ≤ 8 * octets ∧ network.Within (digitsValue digits)
        · rcases whenAccepted accepted with ⟨accepted', bits⟩
          exact .inl ((prefix_bits_iff accepted.1 accepted'.1).mp bits)
        · have rejected := whenRejected accepted
          rw [not_and_or, not_le] at accepted rejected
          rcases rejected with exceeds | outside
          · exact .inr (.inl exceeds)
          · exact .inr (.inr ⟨outside, accepted⟩)

theorem SourceMask.readForDefault_iff {room : Nat} (large : 0 < room) :
    mask.ReadForDefault room hosts ↔
      (mask.inRange = true → hosts = [InAddr.zero] ∧ (mask.cut room).Covers InAddr.zero ∧
        mask ≠ whole ∧ ∀ i < 8 * octets, (mask.cut room).maskBit i = mask.maskBit i) ∧
      (¬ mask.inRange = true → ¬ (hosts ≠ [] ∧ ∀ host ∈ hosts, (mask.cut room).Covers host)) := by
  cases mask with
  | whole => exact iff_of_false id fun both => (both.1 rfl).2.2.1 rfl
  | given mask =>
      rw [ReadForDefault]
      constructor
      · intro hosts_eq
        exact ⟨fun _ => ⟨hosts_eq, covers_zero rfl, by simp, fun _ _ => rfl⟩,
          fun outside => absurd rfl outside⟩
      · exact fun both => (both.1 rfl).1
  | leading digits isNumber =>
      rcases @cut_leading octets inetPton digits isNumber room large with ⟨isNumber', cut_eq⟩
      have less := digitsValue_take_le digits room
      simp only [cut_eq, covers_leading_iff, ReadForDefault, inRange, decide_eq_true_eq, maskBit]
      by_cases small : digitsValue digits ≤ 8 * octets
      · rw [if_pos small]
        have small' : digitsValue (digits.take room) ≤ 8 * octets := less.trans small
        rw [prefix_bits_iff small small']
        constructor
        · rintro ⟨hosts_eq, same⟩
          exact ⟨fun _ => ⟨hosts_eq, ⟨small', InAddr.within_zero _⟩, by simp, same⟩,
            fun large => absurd small large⟩
        · rintro ⟨whenAccepted, -⟩
          rcases whenAccepted small with ⟨hosts_eq, -, -, same⟩
          exact ⟨hosts_eq, same⟩
      · rw [if_neg small]
        constructor
        · intro rejected
          refine ⟨fun small' => absurd small' small, ?_⟩
          rintro - ⟨nonempty, covered⟩
          rcases rejected with empty | exceeds | ⟨host, mem, outside⟩
          · exact nonempty empty
          · rcases List.exists_mem_of_ne_nil hosts nonempty with ⟨host, mem⟩
            exact absurd (covered host mem).1 (not_le_of_gt exceeds)
          · exact outside (covered host mem).2
        · rintro ⟨-, whenRejected⟩
          by_contra accepted
          rw [not_or, not_or] at accepted
          rcases accepted with ⟨nonempty, fits, within⟩
          apply whenRejected small
          refine ⟨nonempty, fun host mem => ⟨le_of_not_gt fits, ?_⟩⟩
          by_contra outside
          exact within ⟨host, mem, outside⟩

/-- The addresses for the name of a source, where those for `default` are given. -/
def Com2SecSource.hostsOf (source : Com2SecSource inetPton) (hosts : List (InAddr octets)) :
    List (InAddr octets) :=
  match source.network with
  | none => hosts
  | some network => [network.value]

/-- The plain word `default`. -/
def Com2SecSource.IsPlain (source : Com2SecSource inetPton) : Prop :=
  source.network = none ∧ source.negate = false ∧ source.mask = .whole

theorem Com2SecSource.readAsMeant_iff {source : Com2SecSource inetPton} {len : Nat}
    (large : 270 ≤ len) (positive : 0 < octets) (notPlain : ¬ source.IsPlain) :
    source.ReadAsMeant len hosts ↔
      (source.Accepted → source.hostsOf hosts = [source.value] ∧
        (source.cut len).mask.Covers source.value ∧
        ∀ i < 8 * octets, (source.cut len).mask.maskBit i = source.maskBit i) ∧
      (¬ source.Accepted → ¬ (source.hostsOf hosts ≠ [] ∧
        ∀ host ∈ source.hostsOf hosts, (source.cut len).mask.Covers host)) := by
  have roomy := source.room_large large
  rcases source with ⟨negate, network, mask⟩
  cases network with
  | some network =>
      have read_iff := @SourceMask.readFor_iff octets inetPton mask
        (room ⟨negate, some network, mask⟩ len) (by omega) network.value
      have bits_eq : maskBit ⟨negate, some network, mask⟩ = mask.maskBit := by
        funext i
        cases mask <;> rfl
      simp only [ReadAsMeant, read_iff, Accepted, bits_eq, hostsOf, value, cut,
        List.forall_mem_singleton, ne_eq, List.cons_ne_nil, not_false_eq_true, true_and]
      rfl
  | none =>
      have read_iff := @SourceMask.readForDefault_iff octets inetPton hosts mask
        (room ⟨negate, none, mask⟩ len) (by omega)
      have noPlain : ¬ (negate = false ∧ mask = .whole) := fun plain => notPlain ⟨rfl, plain⟩
      have accepted_iff : Accepted ⟨negate, none, mask⟩ ↔ mask.inRange = true := by
        rw [Accepted]
        exact and_iff_left fun i inside one => absurd one (InAddr.not_bit_zero inside)
      simp only [ReadAsMeant, or_iff_right noPlain, read_iff, accepted_iff, hostsOf, value, cut]
      apply and_congr_left
      intro _
      apply forall_congr'
      intro _
      refine and_congr_right fun _ => and_congr_right fun _ => ?_
      cases mask with
      | whole =>
          refine iff_of_false (fun both => both.1 rfl) fun same => ?_
          have here := same 0 (by omega)
          cases here
      | leading digits isNumber => simp [maskBit]
      | given mask => simp [maskBit]

end Source

section UDP

variable (resolver : Resolver) (list : Com2SecList 4)

/-- The addresses of a host `default`. -/
def Resolver.defaultHosts4 : List (InAddr 4) :=
  ((resolver.inetPton4 wordDefault).or (resolver.netsnmpGethostbynameV4 wordDefault)).toList

theorem netsnmpUdpResolveSource_text (source : Com2SecSource resolver.inetPton4) :
    (∀ host ∈ source.hostsOf resolver.defaultHosts4, source.mask.Covers host →
      source.hostsOf resolver.defaultHosts4 = [host] ∧ ∃ m : InAddr 4,
        (∀ i < 8 * 4, m.bit i = source.mask.maskBit i) ∧ host.mismatch m = false ∧
          netsnmpUdpResolveSource resolver (source.name ++ source.mask.text) = .ok (host, m)) ∧
    (¬ (source.hostsOf resolver.defaultHosts4 ≠ [] ∧
        ∀ host ∈ source.hostsOf resolver.defaultHosts4, source.mask.Covers host) →
      ∃ message, netsnmpUdpResolveSource resolver (source.name ++ source.mask.text) =
        .error message) := by
  have hosts_eq : source.hostsOf resolver.defaultHosts4 =
      ((resolver.inetPton4 source.name).or
        (resolver.netsnmpGethostbynameV4 source.name)).toList := by
    cases network_eq : source.network with
    | none =>
        simp only [Com2SecSource.hostsOf, Com2SecSource.name, network_eq]
        rfl
    | some network =>
        simp only [Com2SecSource.hostsOf, Com2SecSource.name, network_eq, network.reads]
        rfl
  rw [hosts_eq]
  simp only [netsnmpUdpResolveSource, splitMask_text]
  cases (resolver.inetPton4 source.name).or (resolver.netsnmpGethostbynameV4 source.name) with
  | none => exact ⟨fun host mem => (by cases mem), fun _ => ⟨_, rfl⟩⟩
  | some network =>
      simp only [Option.toList_some, List.forall_mem_singleton, ne_eq, List.cons_ne_nil,
        not_false_eq_true, true_and]
      rcases source.mask.strmask_cases with ⟨whole, none⟩ | ⟨c, rest, given⟩
      · have bits : ∀ i < 8 * 4, (InAddr.ones : InAddr 4).bit i = source.mask.maskBit i := by
          intro i inside
          rw [whole, InAddr.bit_ones inside]
          rfl
        have inRange : source.mask.inRange = true := by
          rw [whole]
          rfl
        have covered : network.mismatch InAddr.ones = false :=
          InAddr.mismatch_eq_false_iff.mpr fun i inside _ => InAddr.bit_ones inside
        rw [none]
        exact ⟨fun _ => ⟨InAddr.ones, bits, covered, rfl⟩, fun rejected =>
          absurd ((InAddr.mismatch_iff_covers inRange bits).mp covered) rejected⟩
      · have parsed := parseMask4_parsed resolver given
        rw [given]
        simp only
        cases inRange : source.mask.inRange with
        | true =>
            rcases parsed.inRange inRange with ⟨m, parsed_eq, bits⟩
            rw [parsed_eq, ← InAddr.mismatch_iff_covers inRange bits]
            simp only
            refine ⟨fun covered => ⟨m, bits, covered, ?_⟩, fun mismatch => ⟨_, if_pos ?_⟩⟩
            · rw [covered]
              rfl
            · exact Bool.eq_true_of_not_eq_false mismatch
        | false =>
            rcases parsed.outside inRange with ⟨message, parsed_eq⟩
            rw [parsed_eq]
            refine ⟨fun covered => ?_, fun _ => ⟨message, rfl⟩⟩
            have wrong : source.mask.inRange = true := covered.1
            rw [inRange] at wrong
            cases wrong

theorem createChecked_line {octets : Nat} {inetPton : List Byte → Option (InAddr octets)}
    (line : Com2SecLine inetPton) (source : List Byte) {network mask : InAddr 4}
    (covered : network.mismatch mask = false) (negate : Bool) :
    createChecked list (line.readAs source) network mask negate =
      (list.link ⟨line.secName, line.context.getD [], network, mask, negate, line.community⟩,
        []) := by
  have contextFits : ¬ vacmMaxString < (line.context.getD []).length := by
    cases context : line.context with
    | none => exact Nat.not_lt_zero _
    | some context' => exact Nat.not_lt.mpr (line.context_short context' context)
  have created : netsnmpUdpCom2SecEntryCreate list (some line.community) (some line.secName)
      (some (line.context.getD [])) (some network) (some mask) negate =
        (list.link ⟨line.secName, line.context.getD [], network, mask, negate, line.community⟩,
          some list.free, .success) := by
    simp only [netsnmpUdpCom2SecEntryCreate, Option.getD_some]
    rw [if_neg (by rw [covered]; exact Bool.false_ne_true),
      if_neg (Nat.not_lt.mpr line.community_short), if_neg (Nat.not_lt.mpr line.name_short),
      if_neg contextFits]
  rw [createChecked, Com2SecLine.readAs, created]
  rfl

theorem readWords_source {octets : Nat} {inetPton : List Byte → Option (InAddr octets)}
    (line : Com2SecLine inetPton) (lengths : Bool) {len : Nat} (large : 270 ≤ len) :
    readWords lengths (len + 1) line.text = .ok (line.readAs (line.source.cut len).text) := by
  have text_eq := line.source.take_text large
  have read := (line.source.cut len).read_text
  have words_eq := @readWords_line octets inetPton line lengths (len + 1)
    (by rw [Nat.add_sub_cancel, text_eq]; exact read.1)
    (by rw [Nat.add_sub_cancel, text_eq]; exact read.2)
  rwa [Nat.add_sub_cancel, text_eq] at words_eq

theorem cut_text_eq_wordDefault_iff {octets : Nat} {inetPton : List Byte → Option (InAddr octets)}
    {source : Com2SecSource inetPton} {len : Nat} (large : 270 ≤ len) :
    (source.cut len).text = wordDefault ↔ source.IsPlain := by
  have roomy := source.room_large large
  rw [Com2SecSource.text_eq_wordDefault_iff, Com2SecSource.IsPlain]
  apply and_congr_right
  intro _
  apply and_congr_right
  intro _
  exact SourceMask.cut_eq_whole_iff (by omega)

theorem LineParsed.of_plain {octets : Nat} {inetPton : List Byte → Option (InAddr octets)}
    {list : Com2SecList octets} {line : Com2SecLine inetPton} (plain : line.source.IsPlain) :
    LineParsed list line (list.link ⟨line.secName, line.context.getD [], InAddr.zero, InAddr.zero,
      false, line.community⟩, []) := by
  rcases plain with ⟨network_eq, negate_eq, mask_eq⟩
  have value_eq : line.source.value = InAddr.zero := by
    rw [Com2SecSource.value, network_eq]
  constructor
  · intro _
    refine ⟨InAddr.zero, fun i inside => ?_, ?_⟩
    · rw [InAddr.bit_zero inside, Com2SecSource.maskBit, network_eq, mask_eq]
    · rw [Com2SecLine.entry, value_eq, negate_eq]
  · intro rejected
    refine absurd ⟨by rw [mask_eq]; rfl, fun i inside one => ?_⟩ rejected
    rw [value_eq] at one
    exact absurd one (InAddr.not_bit_zero inside)

theorem netsnmpUdpParseSecurity_links (line : Com2SecLine resolver.inetPton4)
    (notPlain : ¬ line.source.IsPlain) :
    LinksHosts list line (line.source.hostsOf resolver.defaultHosts4) (line.source.cut 270).mask
      (netsnmpUdpParseSecurity resolver list line.text) := by
  rw [netsnmpUdpParseSecurity, readWords_source line false (le_refl 270)]
  change LinksHosts list line _ _
    (if (line.source.cut 270).text = wordDefault then
      createChecked list (line.readAs (line.source.cut 270).text) InAddr.zero InAddr.zero false
    else _)
  rw [if_neg fun isDefault => notPlain ((cut_text_eq_wordDefault_iff (le_refl 270)).mp isDefault)]
  have netgroup := netsnmpParseSourceAsNetgroup_name resolver list
    (line.readAs (line.source.cut 270).text) (line.source.cut 270)
    (line.source.cut 270).mask.text (line.source.cut 270).negate
  rw [Com2SecLine.readAs] at netgroup
  simp only [Com2SecLine.readAs, splitNegate_text, netgroup]
  have resolved := netsnmpUdpResolveSource_text resolver (line.source.cut 270)
  constructor
  · intro nonempty covered
    rcases List.exists_mem_of_ne_nil _ nonempty with ⟨host, mem⟩
    rcases resolved.1 host mem (covered host mem) with ⟨hosts_eq, m, bits, fits, resolved_eq⟩
    have created := createChecked_line list line (line.source.cut 270).text fits
      (line.source.cut 270).negate
    have hosts_eq' : line.source.hostsOf resolver.defaultHosts4 = [host] := hosts_eq
    rw [Com2SecLine.readAs] at created
    simp only [resolved_eq, hosts_eq', created]
    refine ⟨m, bits, rfl, fun host' same => ?_⟩
    rw [List.singleton_inj.mp same]
    rfl
  · intro rejected
    rcases resolved.2 rejected with ⟨message, resolved_eq⟩
    rw [resolved_eq]
    exact ⟨[message], rfl⟩

theorem netsnmpUdpParseSecurity_line_iff (line : Com2SecLine resolver.inetPton4) :
    LineParsed list line (netsnmpUdpParseSecurity resolver list line.text) ↔
      line.source.ReadAsMeant 270 resolver.defaultHosts4 := by
  by_cases plain : line.source.IsPlain
  · have covered : (InAddr.zero : InAddr 4).mismatch InAddr.zero = false :=
      InAddr.mismatch_eq_false_iff.mpr fun _ _ one => one
    rw [netsnmpUdpParseSecurity, readWords_source line false (le_refl 270)]
    change LineParsed list line
      (if (line.source.cut 270).text = wordDefault then
        createChecked list (line.readAs (line.source.cut 270).text) InAddr.zero InAddr.zero false
      else _) ↔ _
    rw [if_pos ((cut_text_eq_wordDefault_iff (le_refl 270)).mpr plain),
      createChecked_line list line _ covered, Com2SecSource.ReadAsMeant, plain.1]
    exact iff_of_true (.of_plain plain) (.inl plain.2)
  · rw [(netsnmpUdpParseSecurity_links resolver list line plain).lineParsed_iff,
      Com2SecSource.readAsMeant_iff (le_refl 270) (by decide) plain]

end UDP

section UDP6

variable (resolver : Resolver) (list : Com2SecList 16)

/-- The addresses of a host `default`. -/
def Resolver.defaultHosts6 : List (InAddr 16) :=
  match sourceAddresses6 resolver wordDefault with
  | .ok hosts => hosts
  | .error _ => []

theorem createChunks_eq (words : Com2SecWords) (mask : InAddr 16) (negate : Bool)
    (networks : List (InAddr 16)) (chunks : Com2SecList 16) :
    createChunks words mask negate chunks networks =
      if networks.all fun network => !network.mismatch mask then
        .ok (networks.foldl (fun chunks network => chunks.link
          ⟨words.secName, words.contextName, network, mask, negate, words.community⟩) chunks)
      else .error "source/mask mismatch" := by
  induction networks generalizing chunks with
  | nil => rfl
  | cons network networks ih =>
      rw [createChunks, createCom2Sec6Entry, List.all_cons, List.foldl_cons,
        InAddr.mismatch_eq_any]
      cases (List.finRange 16).any fun i => decide (network[i] &&& ~~~mask[i] ≠ 0) with
      | true => rfl
      | false =>
          simp only [Bool.false_eq_true, if_false, Bool.not_false, Bool.true_and]
          exact ih _

theorem linkChunks_covered {words : Com2SecWords} {networks : List (InAddr 16)} {mask : InAddr 16}
    (covered : ∀ network ∈ networks, network.mismatch mask = false) (negate : Bool) :
    (linkChunks list words networks mask negate).1.free = list.free + networks.length ∧
      ∀ network, networks = [network] → linkChunks list words networks mask negate =
        (list.link ⟨words.secName, words.contextName, network, mask, negate, words.community⟩,
          []) := by
  have all : (networks.all fun network => !network.mismatch mask) = true := by
    rw [List.all_eq_true]
    intro network mem
    rw [covered network mem]
    rfl
  constructor
  · simp only [linkChunks, createChunks_eq, all, if_true]
    exact free_foldl_link _ _ fun network =>
      ⟨words.secName, words.contextName, network, mask, negate, words.community⟩
  · rintro network rfl
    simp only [linkChunks, createChunks_eq, all, if_true]
    simp only [List.foldl_cons, List.foldl_nil, Com2SecList.link]

theorem linkChunks_mismatch {words : Com2SecWords} {networks : List (InAddr 16)}
    {mask network : InAddr 16} (mem : network ∈ networks)
    (mismatch : network.mismatch mask = true) (negate : Bool) :
    linkChunks list words networks mask negate = (list, ["source/mask mismatch"]) := by
  have notAll : ¬ (networks.all fun network => !network.mismatch mask) = true := by
    rw [List.all_eq_true]
    intro all
    have here := all network mem
    rw [mismatch] at here
    cases here
  simp only [linkChunks, createChunks_eq, if_neg notAll]

theorem sourceAddresses6_ne_nil {sourcep : List Byte} {hosts : List (InAddr 16)}
    (found : sourceAddresses6 resolver sourcep = .ok hosts) : hosts ≠ [] := by
  simp only [sourceAddresses6] at found
  split at found
  · cases found
    exact List.cons_ne_nil _ _
  · split at found
    · cases found
    · split at found
      · cases found
      · cases found
        exact List.cons_ne_nil _ _

theorem netsnmpUdp6ParseSecurity_links (line : Com2SecLine resolver.inetPton6)
    (notPlain : ¬ line.source.IsPlain) :
    LinksHosts list line (line.source.hostsOf resolver.defaultHosts6) (line.source.cut 300).mask
      (netsnmpUdp6ParseSecurity resolver list line.text) := by
  have large : 270 ≤ 300 := by decide
  rw [netsnmpUdp6ParseSecurity, readWords_source line true large]
  change LinksHosts list line _ _
    (if (line.source.cut 300).text = wordDefault then
      linkChunks list (line.readAs (line.source.cut 300).text) [InAddr.zero] InAddr.zero false
    else _)
  rw [if_neg fun isDefault => notPlain ((cut_text_eq_wordDefault_iff large).mp isDefault)]
  simp only [Com2SecLine.readAs, splitNegate_text, splitMask_text]
  -- the mask, or the reason why there is none
  have parsed : MaskParsed (line.source.cut 300).mask
      (sourceMask6 resolver (line.source.cut 300).mask.strmask) := by
    rcases (line.source.cut 300).mask.strmask_cases with ⟨whole, none⟩ | ⟨c, rest, given⟩
    · rw [none, whole]
      exact ⟨fun _ => ⟨InAddr.ones, rfl, fun i inside => InAddr.bit_ones inside⟩,
        fun wrong => by cases wrong⟩
    · have parsed := parseMask6_parsed resolver given
      rw [given]
      exact parsed
  have hosts_eq : line.source.hostsOf resolver.defaultHosts6 =
      match sourceAddresses6 resolver (line.source.cut 300).name with
      | .ok hosts => hosts
      | .error _ => [] := by
    have name_eq : (line.source.cut 300).name = line.source.name := rfl
    rw [name_eq]
    cases network_eq : line.source.network with
    | none =>
        simp only [Com2SecSource.hostsOf, Com2SecSource.name, network_eq]
        rfl
    | some network =>
        simp only [Com2SecSource.hostsOf, Com2SecSource.name, network_eq, sourceAddresses6,
          network.reads]
  cases inRange : (line.source.cut 300).mask.inRange with
  | false =>
      rcases parsed.outside inRange with ⟨message, parsed_eq⟩
      rw [parsed_eq]
      refine ⟨fun nonempty covered => ?_, fun _ => ⟨[message], rfl⟩⟩
      rcases List.exists_mem_of_ne_nil _ nonempty with ⟨host, mem⟩
      have wrong := (covered host mem).1
      rw [inRange] at wrong
      cases wrong
  | true =>
      rcases parsed.inRange inRange with ⟨m, parsed_eq, bits⟩
      rw [parsed_eq]
      simp only
      cases found : sourceAddresses6 resolver (line.source.cut 300).name with
      | error messages =>
          rw [found] at hosts_eq
          exact ⟨fun nonempty => absurd hosts_eq nonempty, fun _ => ⟨messages, rfl⟩⟩
      | ok hosts =>
          rw [found] at hosts_eq
          simp only at hosts_eq ⊢
          rw [hosts_eq]
          constructor
          · intro _ covered
            have fits : ∀ host ∈ hosts, host.mismatch m = false := fun host mem =>
              (InAddr.mismatch_iff_covers inRange bits).mpr (covered host mem)
            have linked := @linkChunks_covered list (line.readAs (line.source.cut 300).text) hosts m
              fits (line.source.cut 300).negate
            exact ⟨m, bits, linked.1, linked.2⟩
          · intro rejected
            have uncovered : ∃ host ∈ hosts, ¬ (line.source.cut 300).mask.Covers host := by
              by_contra all
              apply rejected
              refine ⟨sourceAddresses6_ne_nil resolver found, fun host mem => ?_⟩
              by_contra outside
              exact all ⟨host, mem, outside⟩
            rcases uncovered with ⟨host, mem, outside⟩
            rw [← InAddr.mismatch_iff_covers inRange bits] at outside
            exact ⟨_, linkChunks_mismatch list mem (Bool.eq_true_of_not_eq_false outside) _⟩

theorem netsnmpUdp6ParseSecurity_line_iff (line : Com2SecLine resolver.inetPton6) :
    LineParsed list line (netsnmpUdp6ParseSecurity resolver list line.text) ↔
      line.source.ReadAsMeant 300 resolver.defaultHosts6 := by
  have large : 270 ≤ 300 := by decide
  by_cases plain : line.source.IsPlain
  · have covered : ∀ network ∈ [(InAddr.zero : InAddr 16)],
        network.mismatch InAddr.zero = false := by
      intro network mem
      rw [List.mem_singleton.mp mem]
      exact InAddr.mismatch_eq_false_iff.mpr fun _ _ one => one
    rw [netsnmpUdp6ParseSecurity, readWords_source line true large]
    change LineParsed list line
      (if (line.source.cut 300).text = wordDefault then
        linkChunks list (line.readAs (line.source.cut 300).text) [InAddr.zero] InAddr.zero false
      else _) ↔ _
    rw [if_pos ((cut_text_eq_wordDefault_iff large).mpr plain),
      (linkChunks_covered list covered false).2 _ rfl, Com2SecSource.ReadAsMeant, plain.1]
    exact iff_of_true (.of_plain plain) (.inl plain.2)
  · rw [(netsnmpUdp6ParseSecurity_links resolver list line plain).lineParsed_iff,
      Com2SecSource.readAsMeant_iff large (by decide) plain]

end UDP6

end NetSnmp
