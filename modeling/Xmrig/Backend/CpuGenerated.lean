import Xmrig.Backend.CpuProfiles

/-! A configuration that was saved, read back.

A generator only adds, and where all that it left is there still it has nothing to do: so nothing
is generated for what is read back. The alias of `rx/arq` is the one that may lose its profile.
-/

set_option autoImplicit false

namespace Xmrig

open Foundation

section Moves
variable {T : Type} (list : ThreadList T) (threads : Threads T) (profile : List Byte) (moved : T)

namespace Threads

theorem move_of_has (there : threads.has profile = true) : threads.move list profile moved = (threads, 0) :=
  if_pos there

theorem move_of_isEmpty (nothing : list.isEmpty moved = true) :
    threads.move list profile moved = (threads, 0) := by
  have count : list.count moved = 0 := of_decide_eq_true nothing
  unfold move
  rw [if_pos nothing, count, ite_self]

theorem move_eq : (threads.move list profile moved).1 = threads ∨
    (threads.move list profile moved).1 =
      { threads with profiles := threads.profiles.insert profile moved } := by
  unfold move
  split
  · exact .inl rfl
  · dsimp only
    split
    · exact .inl rfl
    · exact .inr rfl

theorem move_aliases : (threads.move list profile moved).1.aliases = threads.aliases := by
  rcases threads.move_eq list profile moved with same | same
  · rw [same]
  · rw [same]

theorem move_isDisabled (algo : Algorithm) :
    (threads.move list profile moved).1.isDisabled algo = threads.isDisabled algo := by
  rcases threads.move_eq list profile moved with same | same
  · rw [same]
  · rw [same]
    rfl

theorem move_has (some : list.isEmpty moved = false) :
    (threads.move list profile moved).1.has profile = true := by
  unfold move
  cases there : threads.has profile with
  | true => exact there
  | false =>
    rw [if_neg Bool.false_ne_true, some, if_neg Bool.false_ne_true]
    exact OrderedMap.has_insert_self _ profile moved

theorem move_has_other {other : List Byte} (apart : nameOrder.same profile other = false) :
    (threads.move list profile moved).1.has other = threads.has other := by
  rcases threads.move_eq list profile moved with same | same
  · rw [same]
  · rw [same, Bool.eq_iff_iff]
    change (threads.profiles.insert profile moved).has other = true ↔ _
    rw [OrderedMap.has_insert, apart]
    constructor
    · rintro (old | ⟨-, impossible⟩)
      · exact old
      · cases impossible
    · exact .inl

theorem move_grows : Grows threads (threads.move list profile moved).1 := by
  have has (other : List Byte) (there : threads.has other = true) :
      (threads.move list profile moved).1.has other = true := by
    rcases threads.move_eq list profile moved with same | same
    · rw [same]
      exact there
    · rw [same]
      exact (OrderedMap.has_insert _).mpr (.inl there)
  refine ⟨fun algo there => ?_, has⟩
  rw [isExist_iff] at there ⊢
  rw [move_isDisabled, move_aliases]
  rcases there with off | aliased | named
  · exact .inl off
  · exact .inr (.inl aliased)
  · exact .inr (.inr (has _ named))

theorem disable_isExist (algo : Algorithm) : (threads.disable algo).isExist algo = true :=
  isExist_iff.mpr (.inl (OrderedMap.has_insert_self _ algo ()))

theorem disable_isDisabled (algo other : Algorithm) : (threads.disable algo).isDisabled other = true ↔
    threads.isDisabled other = true ∨ algo = other :=
  OrderedMap.has_insert_total _ algorithmOrder_total

theorem disable_grows (algo : Algorithm) : Grows threads (threads.disable algo) := by
  refine ⟨fun other there => ?_, fun _ => id⟩
  rw [isExist_iff] at there ⊢
  rcases there with off | rest
  · exact .inl ((threads.disable_isDisabled algo other).mpr (.inl off))
  · exact .inr rest

theorem setAlias_eq {algo : Algorithm} (missing : threads.isExist algo = false) :
    threads.setAlias algo profile = { threads with aliases := threads.aliases.insert algo profile } := by
  have unaliased : threads.aliases.has algo = false := by
    rw [← Bool.not_eq_true] at missing ⊢
    exact fun aliased => missing (isExist_iff.mpr (.inr (.inl aliased)))
  unfold setAlias
  rw [OrderedMap.assign_of_not_has _ unaliased]

theorem insertAlias_isExist (algo other : Algorithm) :
    ({ threads with aliases := threads.aliases.insert algo profile } : Threads T).isExist other = true ↔
      threads.isExist other = true ∨ algo = other := by
  rw [isExist_iff, isExist_iff]
  change _ ∨ (threads.aliases.insert algo profile).has other = true ∨ _ ↔ _
  rw [OrderedMap.has_insert_total _ algorithmOrder_total]
  constructor
  · rintro (off | (aliased | rfl) | named)
    · exact .inl (.inl off)
    · exact .inl (.inr (.inl aliased))
    · exact .inr rfl
    · exact .inl (.inr (.inr named))
  · rintro ((off | aliased | named) | rfl)
    · exact .inl off
    · exact .inr (.inl (.inl aliased))
    · exact .inr (.inr named)
    · exact .inr (.inl (.inr rfl))

end Threads

end Moves

/-! ### Generated profiles -/

namespace Profiles

section Generators
variable {cpu : CpuInfo} {union : Json → BitVec 32}

theorem cpuThreadList_isEmpty {threads : CpuThreads} :
    (cpuThreadList union).isEmpty threads = true ↔ threads.data = [] := by
  refine decide_eq_true_iff.trans ?_
  exact List.length_eq_zero_iff

theorem cpuThreadList_rereads : Threads.Rereads (cpuThreadList union) where
  again value some := by
    apply (CpuThreads.read_readable value).read_toJSON
    intro nothing
    exact Bool.false_ne_true (some.symm.trans (cpuThreadList_isEmpty.mpr nothing))
  shape threads := by
    cases threads with
    | mk format affinity data =>
      cases format with
      | array => rfl
      | object => rfl

theorem cpu_again {algorithm : Algorithm} {limit : Nat}
    (some : (cpuThreadList union).isEmpty (cpu.threads algorithm limit) = false) :
    (cpuThreadList union).ofJson ((cpuThreadList union).toJSON (cpu.threads algorithm limit)) =
      cpu.threads algorithm limit := by
  have listed := cpu.listed algorithm limit
  have bounded := cpu.bounded algorithm limit
  generalize cpu.threads algorithm limit = threads at *
  cases threads with
  | mk format affinity data =>
    obtain ⟨rfl, rfl⟩ := listed
    apply (CpuThreads.Readable.array data bounded).read_toJSON
    intro nothing
    rw [cpuThreadList_isEmpty.mpr nothing] at some
    cases some

/-- A generator adds to what is there, adds only what can be read back, and has nothing to do where
all that it leaves is there already, whatever the limit. -/
structure Settles (cpu : CpuInfo) (union : Json → BitVec 32)
    (generator : Nat → Threads CpuThreads → Generation) : Prop where
  grows : ∀ limit threads, Threads.Grows threads (generator limit threads).1
  kept : ∀ limit threads, Threads.Kept (cpuThreadList union) threads →
    Threads.Kept (cpuThreadList union) (generator limit threads).1
  idle : ∀ limit threads other later, Threads.Grows (generator limit threads).1 later →
    generator other later = (later, 0)

variable (cpu union)

theorem text_whole (algorithm : Algorithm) : (0 : Byte) ∉ text algorithm.name := by
  have same := Algorithm.cString_text_name algorithm
  rw [← same]
  exact Json.cString_whole _

theorem generateKey_settles {key : String} {algorithm : Algorithm} (whole : (0 : Byte) ∉ text key) :
    Settles cpu union fun limit threads =>
      generateKey cpu (cpuThreadList union) limit key threads algorithm where
  grows limit threads := by
    unfold generateKey
    split
    · exact Threads.Grows.refl threads
    · exact threads.move_grows _ _ _
  kept limit threads kept := by
    unfold generateKey
    split
    · exact kept
    · exact kept.move whole cpu_again
  idle limit threads other later grows := by
    unfold generateKey at grows ⊢
    split
    · rfl
    · rename_i absent
      split at grows
      · rename_i there
        rw [Bool.or_eq_true] at there absent
        rcases there with exists_ | has
        · exact (absent (.inl (grows.exist _ exists_))).elim
        · exact (absent (.inr (grows.has _ has))).elim
      · cases some : (cpuThreadList union).isEmpty (cpu.threads algorithm limit) with
        | true =>
          have nothing := (cpu.limited algorithm limit other).mp (cpuThreadList_isEmpty.mp some)
          exact later.move_of_isEmpty _ _ _ (cpuThreadList_isEmpty.mpr nothing)
        | false =>
          have there := grows.has _ (threads.move_has _ _ _ some)
          exact later.move_of_has _ _ _ there

theorem generateFirstOff_settles {key : String} {algorithm first : Algorithm}
    (whole : (0 : Byte) ∉ text key) (listed : first.Listed) :
    Settles cpu union fun limit =>
      generateFirstOff cpu (cpuThreadList union) limit key algorithm first := by
  have keyed := @generateKey_settles cpu union key algorithm whole
  refine ⟨fun limit threads => ?_, fun limit threads kept => ?_, fun limit threads other later grows => ?_⟩
  · have grows := keyed.grows limit threads
    unfold generateFirstOff
    dsimp only at grows ⊢
    split
    · exact grows.trans (Threads.disable_grows _ first)
    · exact grows
  · have kept := keyed.kept limit threads kept
    unfold generateFirstOff
    dsimp only at kept ⊢
    split
    · exact kept.disable listed
    · exact kept
  · have both : Threads.Grows (generateKey cpu (cpuThreadList union) limit key threads algorithm).1 later ∧
        later.isExist first = true := by
      unfold generateFirstOff at grows
      dsimp only at grows
      split at grows
      · exact ⟨(Threads.disable_grows _ first).trans grows,
          grows.exist _ (Threads.disable_isExist _ first)⟩
      · rename_i there
        rw [Bool.not_eq_true', Bool.not_eq_false] at there
        exact ⟨grows, grows.exist _ there⟩
    have idle := keyed.idle limit threads other later both.1
    unfold generateFirstOff
    dsimp only at idle ⊢
    rw [idle]
    dsimp only
    rw [both.2]
    rfl

theorem generateWow_settles : Settles cpu union (generateWow cpu (cpuThreadList union)) where
  grows limit threads := by
    unfold generateWow
    split
    · exact threads.move_grows _ _ _
    · exact Threads.Grows.refl threads
  kept limit threads kept := by
    unfold generateWow
    split
    · exact kept.move (text_whole _) cpu_again
    · exact kept
  idle limit threads other later grows := by
    unfold generateWow at grows ⊢
    split
    · rename_i absent
      rw [Bool.not_eq_true'] at absent
      split at grows
      · cases some : (cpuThreadList union).isEmpty (cpu.threads .rxWow limit) with
        | true =>
          have nothing := (cpu.limited .rxWow limit other).mp (cpuThreadList_isEmpty.mp some)
          exact later.move_of_isEmpty _ _ _ (cpuThreadList_isEmpty.mpr nothing)
        | false =>
          exact later.move_of_has _ _ _ (grows.has _ (threads.move_has _ _ _ some))
      · rename_i there
        rw [Bool.not_eq_true', Bool.not_eq_false] at there
        rw [grows.exist _ there] at absent
        cases absent
    · rfl

theorem generateArq_settles : Settles cpu union (generateArq cpu (cpuThreadList union)) where
  grows limit threads := by
    unfold generateArq
    dsimp only
    split
    · rename_i absent
      rw [Bool.not_eq_true'] at absent
      split
      · rw [Threads.setAlias_eq _ _ absent]
        exact ⟨fun algo there => (threads.insertAlias_isExist _ _ algo).mpr (.inl there), fun _ => id⟩
      · exact threads.move_grows _ _ _
    · exact Threads.Grows.refl threads
  kept limit threads kept := by
    unfold generateArq
    dsimp only
    split
    · rename_i absent
      rw [Bool.not_eq_true'] at absent
      split
      · rw [Threads.setAlias_eq _ _ absent]
        exact kept.insertAlias (Algorithm.listed_of_known (by decide)) (text_whole _)
      · exact kept.move (text_whole _) cpu_again
    · exact kept
  idle limit threads other later grows := by
    unfold generateArq at grows ⊢
    dsimp only at grows ⊢
    cases there : later.isExist .rxArq with
    | true => rfl
    | false =>
      rw [Bool.not_false, if_pos rfl]
      have before : threads.isExist .rxArq = false := by
        rw [← Bool.not_eq_true] at there ⊢
        intro exists_
        rw [exists_] at grows
        exact there (grows.exist _ exists_)
      rw [before, Bool.not_false, if_pos rfl] at grows
      cases equal : (cpu.threads .rxArq limit).isEqual (cpu.threads .rxWow limit) with
      | true =>
        rw [equal, if_pos rfl, Threads.setAlias_eq _ _ before] at grows
        have aliased := grows.exist .rxArq ((threads.insertAlias_isExist _ _ _).mpr (.inr rfl))
        rw [there] at aliased
        cases aliased
      | false =>
        rw [equal, if_neg Bool.false_ne_true] at grows
        cases some : (cpuThreadList union).isEmpty (cpu.threads .rxArq limit) with
        | false =>
          have named := grows.has _ (threads.move_has _ _ _ some)
          have exists_ := Threads.isExist_iff.mpr (.inr (.inr named))
          rw [there] at exists_
          cases exists_
        | true =>
          have arq := cpuThreadList_isEmpty.mp some
          have nothing := (cpu.limited .rxArq limit other).mp arq
          have wow : (cpu.threads .rxWow other).data ≠ [] := by
            intro none
            have both := (cpu.limited .rxWow other limit).mp none
            have same := of_decide_eq_false equal
            exact same (arq.trans both.symm)
          have apart : (cpu.threads .rxArq other).isEqual (cpu.threads .rxWow other) = false := by
            apply decide_eq_false
            rw [nothing]
            exact fun none => wow none.symm
          rw [apart, if_neg Bool.false_ne_true]
          exact later.move_of_isEmpty _ _ _ (cpuThreadList_isEmpty.mpr nothing)

theorem generators_settle : ∀ generator ∈ generators cpu (cpuThreadList union), Settles cpu union generator := by
  have whole : ∀ key ∈ ["cn", "cn-lite", "cn-heavy", "cn-pico", "cn/upx2", "rx", "argon2", "ghostrider"],
      (0 : Byte) ∉ text key := by decide
  simp only [generators, List.forall_mem_cons]
  refine ⟨generateFirstOff_settles cpu union (whole "cn" (by decide)) (Algorithm.listed_of_known (by decide)),
    generateFirstOff_settles cpu union (whole "cn-lite" (by decide)) (Algorithm.listed_of_known (by decide)),
    generateKey_settles cpu union (whole "cn-heavy" (by decide)),
    generateKey_settles cpu union (whole "cn-pico" (by decide)),
    generateKey_settles cpu union (whole "cn/upx2" (by decide)),
    generateArq_settles cpu union, generateWow_settles cpu union,
    generateKey_settles cpu union (whole "rx" (by decide)),
    generateKey_settles cpu union (whole "argon2" (by decide)),
    generateKey_settles cpu union (whole "ghostrider" (by decide)), ?_⟩
  intro generator none
  cases none

section Runs
variable {cpu union}
variable {generators : List (Nat → Threads CpuThreads → Generation)}

theorem foldl_grows (settle : ∀ generator ∈ generators, Settles cpu union generator) (limit : Nat)
    (generation : Generation) :
    Threads.Grows generation.1 (generators.foldl (generateWith limit) generation).1 := by
  induction generators generalizing generation with
  | nil => exact Threads.Grows.refl _
  | cons generator rest ih =>
    have step := (settle generator List.mem_cons_self).grows limit generation.1
    exact step.trans (ih (fun generator member => settle generator (List.mem_cons_of_mem _ member))
      (generateWith limit generation generator))

theorem foldl_kept (settle : ∀ generator ∈ generators, Settles cpu union generator) (limit : Nat)
    (generation : Generation) (kept : Threads.Kept (cpuThreadList union) generation.1) :
    Threads.Kept (cpuThreadList union) (generators.foldl (generateWith limit) generation).1 := by
  induction generators generalizing generation with
  | nil => exact kept
  | cons generator rest ih =>
    exact ih (fun generator member => settle generator (List.mem_cons_of_mem _ member)) _
      ((settle generator List.mem_cons_self).kept limit generation.1 kept)

theorem foldl_idle (settle : ∀ generator ∈ generators, Settles cpu union generator) (limit : Nat)
    (generation : Generation) {later : Threads CpuThreads}
    (grows : Threads.Grows (generators.foldl (generateWith limit) generation).1 later) (other : Nat) :
    ∀ generator ∈ generators, generator other later = (later, 0) := by
  induction generators generalizing generation with
  | nil =>
    intro generator none
    cases none
  | cons first rest ih =>
    have behind := fun generator member => settle generator (List.mem_cons_of_mem first member)
    intro generator member
    rcases List.mem_cons.mp member with rfl | member
    · apply (settle generator List.mem_cons_self).idle limit generation.1
      exact (foldl_grows behind limit (generateWith limit generation generator)).trans grows
    · exact ih behind (generateWith limit generation first) grows generator member

theorem foldl_of_idle {limit : Nat} {threads : Threads CpuThreads} {count : Nat}
    (idle : ∀ generator ∈ generators, generator limit threads = (threads, 0)) :
    generators.foldl (generateWith limit) (threads, count) = (threads, count) := by
  induction generators with
  | nil => rfl
  | cons generator rest ih =>
    have step : generateWith limit (threads, count) generator = (threads, count) := by
      unfold generateWith
      dsimp only
      rw [idle generator List.mem_cons_self]
      rfl
    rw [List.foldl_cons, step, ih fun generator member => idle generator (List.mem_cons_of_mem _ member)]

end Runs

theorem generateAll_idle (limit other : Nat) (threads : Threads CpuThreads) {later : Threads CpuThreads}
    (grows : Threads.Grows (generateAll cpu (cpuThreadList union) limit threads).1 later) :
    generateAll cpu (cpuThreadList union) other later = (later, 0) :=
  foldl_of_idle (foldl_idle (generators_settle cpu union) limit (threads, 0) grows other)

/-! ### The alias of `rx/arq` -/

section Aliases

/-- A generator that does not touch what the alias depends on. -/
structure Leaves (threads later : Threads CpuThreads) : Prop where
  aliases : later.aliases = threads.aliases
  disabled : ∀ algo ∈ [Algorithm.rxArq, .rxWow], later.isDisabled algo = threads.isDisabled algo
  has : ∀ algo ∈ [Algorithm.rxArq, .rxWow], later.has (text algo.name) = threads.has (text algo.name)

variable {threads later final : Threads CpuThreads}

theorem Leaves.trans (one : Leaves threads later) (two : Leaves later final) : Leaves threads final where
  aliases := two.aliases.trans one.aliases
  disabled algo member := (two.disabled algo member).trans (one.disabled algo member)
  has algo member := (two.has algo member).trans (one.has algo member)

theorem Leaves.isExist (leaves : Leaves threads later) {algo : Algorithm}
    (member : algo ∈ [Algorithm.rxArq, .rxWow]) : later.isExist algo = threads.isExist algo := by
  unfold Threads.isExist
  rw [leaves.aliases, leaves.disabled algo member, leaves.has algo member]

theorem generateKey_leaves {key : String} {algorithm : Algorithm}
    (apart : ∀ algo ∈ [Algorithm.rxArq, .rxWow], nameOrder.same (text key) (text algo.name) = false)
    (limit : Nat) (threads : Threads CpuThreads) :
    Leaves threads (generateKey cpu (cpuThreadList union) limit key threads algorithm).1 := by
  unfold generateKey
  split
  · exact ⟨rfl, fun _ _ => rfl, fun _ _ => rfl⟩
  · exact ⟨threads.move_aliases _ _ _, fun algo _ => threads.move_isDisabled _ _ _ algo,
      fun algo member => threads.move_has_other _ _ _ (apart algo member)⟩

theorem generateFirstOff_leaves {key : String} {algorithm first : Algorithm}
    (apart : ∀ algo ∈ [Algorithm.rxArq, .rxWow], nameOrder.same (text key) (text algo.name) = false)
    (other : first ∉ [Algorithm.rxArq, .rxWow]) (limit : Nat) (threads : Threads CpuThreads) :
    Leaves threads (generateFirstOff cpu (cpuThreadList union) limit key algorithm first threads).1 := by
  have keyed := @generateKey_leaves cpu union key algorithm apart limit threads
  unfold generateFirstOff
  dsimp only
  split
  · refine keyed.trans ⟨rfl, fun algo member => ?_, fun _ _ => rfl⟩
    rw [Bool.eq_iff_iff, Threads.disable_isDisabled]
    constructor
    · rintro (old | rfl)
      · exact old
      · exact (other member).elim
    · exact .inl
  · exact keyed

theorem foldl_leaves {generators : List (Nat → Threads CpuThreads → Generation)}
    (each : ∀ generator ∈ generators, ∀ limit threads, Leaves threads (generator limit threads).1)
    (limit : Nat) (generation : Generation) :
    Leaves generation.1 (generators.foldl (generateWith limit) generation).1 := by
  induction generators generalizing generation with
  | nil => exact ⟨rfl, fun _ _ => rfl, fun _ _ => rfl⟩
  | cons generator rest ih =>
    have step := each generator List.mem_cons_self limit generation.1
    exact step.trans (ih (fun generator member => each generator (List.mem_cons_of_mem _ member))
      (generateWith limit generation generator))

/-- No generated profile but `rx/wow` has the name of what the alias depends on. -/
theorem keys_apart : ∀ key ∈ ["cn", "cn-lite", "cn-heavy", "cn-pico", "cn/upx2", "rx", "argon2", "ghostrider"],
    ∀ algo ∈ [Algorithm.rxArq, .rxWow], nameOrder.same (text key) (text algo.name) = false := by
  decide +kernel

def before : List (Nat → Threads CpuThreads → Generation) :=
  [generateCN cpu (cpuThreadList union), generateCNLite cpu (cpuThreadList union),
    generateCNHeavy cpu (cpuThreadList union), generateCNPico cpu (cpuThreadList union),
    generateCNFemto cpu (cpuThreadList union)]

def behind : List (Nat → Threads CpuThreads → Generation) :=
  [generateRx cpu (cpuThreadList union), generateArgon2 cpu (cpuThreadList union),
    generateGhostRider cpu (cpuThreadList union)]

theorem before_leaves : ∀ generator ∈ before cpu union, ∀ limit threads,
    Leaves threads (generator limit threads).1 := by
  simp only [before, List.forall_mem_cons]
  refine ⟨generateFirstOff_leaves cpu union (keys_apart "cn" (by decide)) (by decide),
    generateFirstOff_leaves cpu union (keys_apart "cn-lite" (by decide)) (by decide),
    generateKey_leaves cpu union (keys_apart "cn-heavy" (by decide)),
    generateKey_leaves cpu union (keys_apart "cn-pico" (by decide)),
    generateKey_leaves cpu union (keys_apart "cn/upx2" (by decide)), ?_⟩
  intro generator none
  cases none

theorem behind_leaves : ∀ generator ∈ behind cpu union, ∀ limit threads,
    Leaves threads (generator limit threads).1 := by
  simp only [behind, List.forall_mem_cons]
  refine ⟨generateKey_leaves cpu union (keys_apart "rx" (by decide)),
    generateKey_leaves cpu union (keys_apart "argon2" (by decide)),
    generateKey_leaves cpu union (keys_apart "ghostrider" (by decide)), ?_⟩
  intro generator none
  cases none

/-- `rx/arq` gets the alias `rx/wow`, and `rx/wow` no profile. -/
def LosesAlias (limit : Nat) (threads : Threads CpuThreads) : Prop :=
  threads.isExist .rxArq = false ∧
    (cpu.threads .rxArq limit).isEqual (cpu.threads .rxWow limit) = true ∧
    threads.has (text Algorithm.rxWow.name) = false ∧
    (threads.isExist .rxWow = true ∨ (cpu.threads .rxWow limit).data = [])

theorem Leaves.losesAlias (leaves : Leaves threads later) (limit : Nat) :
    LosesAlias cpu limit later ↔ LosesAlias cpu limit threads := by
  unfold LosesAlias
  rw [leaves.isExist List.mem_cons_self, leaves.has .rxWow (by decide), leaves.isExist (by decide)]

/-- An alias without a profile is the one of `rx/arq`, which has no profile of its own then. -/
structure AliasesOf (lost : Prop) (threads : Threads CpuThreads) : Prop where
  alive : threads.Alive ↔ ¬ lost
  unnamed : ∀ entry ∈ threads.aliases.entries, threads.has entry.2 = false →
    threads.has (text entry.1.name) = false

variable {cpu union} {limit : Nat}

theorem generateArq_cases (threads : Threads CpuThreads) :
    ((generateArq cpu (cpuThreadList union) limit threads).1.aliases = threads.aliases ∧
      ¬ LosesAlias cpu limit threads) ∨
    (threads.isExist .rxArq = false ∧
      (cpu.threads .rxArq limit).isEqual (cpu.threads .rxWow limit) = true ∧
      (generateArq cpu (cpuThreadList union) limit threads).1 =
        { threads with aliases := threads.aliases.insert .rxArq (text Algorithm.rxWow.name) }) := by
  unfold generateArq
  dsimp only
  cases there : threads.isExist .rxArq with
  | true =>
    rw [Bool.not_true, if_neg Bool.false_ne_true]
    refine .inl ⟨rfl, fun lost => ?_⟩
    have absent := lost.1
    rw [there] at absent
    cases absent
  | false =>
    rw [Bool.not_false, if_pos rfl]
    cases equal : (cpu.threads .rxArq limit).isEqual (cpu.threads .rxWow limit) with
    | true =>
      rw [if_pos rfl, Threads.setAlias_eq _ _ there]
      exact .inr ⟨rfl, rfl, rfl⟩
    | false =>
      rw [if_neg Bool.false_ne_true]
      refine .inl ⟨threads.move_aliases _ _ _, fun lost => ?_⟩
      have same := lost.2.1
      rw [equal] at same
      cases same

theorem generateWow_aliases (threads : Threads CpuThreads) :
    (generateWow cpu (cpuThreadList union) limit threads).1.aliases = threads.aliases := by
  unfold generateWow
  split
  · exact threads.move_aliases _ _ _
  · rfl

theorem generateWow_has_arq (threads : Threads CpuThreads) :
    (generateWow cpu (cpuThreadList union) limit threads).1.has (text Algorithm.rxArq.name) =
      threads.has (text Algorithm.rxArq.name) := by
  unfold generateWow
  split
  · exact threads.move_has_other _ _ _ (by decide)
  · rfl

/-- There is no profile `rx/wow` after its generator if it was there in another way, or empty. -/
theorem generateWow_has (threads : Threads CpuThreads) :
    (generateWow cpu (cpuThreadList union) limit threads).1.has (text Algorithm.rxWow.name) = false ↔
      threads.has (text Algorithm.rxWow.name) = false ∧
        (threads.isExist .rxWow = true ∨ (cpu.threads .rxWow limit).data = []) := by
  unfold generateWow
  cases there : threads.isExist .rxWow with
  | true =>
    rw [Bool.not_true, if_neg Bool.false_ne_true]
    exact ⟨fun missing => ⟨missing, .inl rfl⟩, And.left⟩
  | false =>
    rw [Bool.not_false, if_pos rfl]
    have missing : threads.has (text Algorithm.rxWow.name) = false := by
      rw [← Bool.not_eq_true] at there ⊢
      exact fun named => there (Threads.isExist_iff.mpr (.inr (.inr named)))
    cases some : (cpuThreadList union).isEmpty (cpu.threads .rxWow limit) with
    | true =>
      rw [threads.move_of_isEmpty _ _ _ some]
      exact ⟨fun missing => ⟨missing, .inr (cpuThreadList_isEmpty.mp some)⟩, And.left⟩
    | false =>
      rw [threads.move_has _ _ _ some]
      constructor
      · intro impossible
        cases impossible
      · rintro ⟨-, impossible | nothing⟩
        · cases impossible
        · exact (Bool.false_ne_true (some.symm.trans (cpuThreadList_isEmpty.mpr nothing))).elim

theorem generateAll_aliases (threads : Threads CpuThreads) (alive : threads.Alive) :
    AliasesOf (LosesAlias cpu limit threads)
      (generateAll cpu (cpuThreadList union) limit threads).1 := by
  have parts : generateAll cpu (cpuThreadList union) limit threads =
      (behind cpu union).foldl (generateWith limit) (generateWith limit (generateWith limit
        ((before cpu union).foldl (generateWith limit) (threads, 0))
          (generateArq cpu (cpuThreadList union))) (generateWow cpu (cpuThreadList union))) := by
    have order : generators cpu (cpuThreadList union) = before cpu union ++
        generateArq cpu (cpuThreadList union) :: generateWow cpu (cpuThreadList union) :: behind cpu union := rfl
    unfold generateAll
    rw [order, List.foldl_append, List.foldl_cons, List.foldl_cons]
  have grows := foldl_grows (generators_settle cpu union) limit (threads, 0)
  change Threads.Grows threads (generateAll cpu (cpuThreadList union) limit threads).1 at grows
  have first := foldl_leaves (before_leaves cpu union) limit (threads, 0)
  rw [parts] at grows ⊢
  generalize (before cpu union).foldl (generateWith limit) (threads, 0) = start at first grows ⊢
  have last := foldl_leaves (behind_leaves cpu union) limit (generateWith limit (generateWith limit
    start (generateArq cpu (cpuThreadList union))) (generateWow cpu (cpuThreadList union)))
  generalize (behind cpu union).foldl (generateWith limit) _ = final at last grows ⊢
  change Leaves (generateWow cpu (cpuThreadList union) limit
    (generateArq cpu (cpuThreadList union) limit start.1).1).1 final.1 at last
  rw [← first.losesAlias cpu limit]
  have old : ∀ entry ∈ start.1.aliases.entries, final.1.has entry.2 = true := by
    intro entry member
    rw [first.aliases] at member
    exact grows.has _ (alive entry member)
  have aliases := last.aliases.trans (generateWow_aliases _)
  rcases generateArq_cases start.1 with ⟨kept, notLost⟩ | ⟨absent, equal, aliased⟩
  · rw [kept] at aliases
    refine ⟨iff_of_true (fun entry member => ?_) notLost, fun entry member missing => ?_⟩
    · rw [aliases] at member
      exact old entry member
    · rw [aliases] at member
      rw [old entry member] at missing
      cases missing
  · have wow := last.has .rxWow (by decide)
    have arq := (last.has .rxArq (by decide)).trans (generateWow_has_arq _)
    have lost := @generateWow_has cpu union limit (generateArq cpu (cpuThreadList union) limit start.1).1
    rw [← wow] at lost
    rw [aliased] at aliases arq lost
    have exist : ({ start.1 with aliases := start.1.aliases.insert .rxArq (text Algorithm.rxWow.name) } :
        Threads CpuThreads).isExist .rxWow = start.1.isExist .rxWow := by
      rw [Bool.eq_iff_iff, Threads.insertAlias_isExist]
      constructor
      · rintro (there | impossible)
        · exact there
        · cases impossible
      · exact .inl
    rw [exist] at lost
    have unnamed : final.1.has (text Algorithm.rxArq.name) = false := by
      rw [arq, ← Bool.not_eq_true]
      rw [← Bool.not_eq_true] at absent
      exact fun named => absent (Threads.isExist_iff.mpr (.inr (.inr named)))
    have unaliased : start.1.aliases.has .rxArq = false := by
      rw [← Bool.not_eq_true] at absent ⊢
      exact fun there => absent (Threads.isExist_iff.mpr (.inr (.inl there)))
    constructor
    · constructor
      · rintro all ⟨-, -, missing⟩
        have new : (Algorithm.rxArq, text Algorithm.rxWow.name) ∈ final.1.aliases.entries := by
          rw [aliases]
          exact (OrderedMap.mem_insert _).mpr (.inr ⟨unaliased, rfl⟩)
        have there := all _ new
        rw [lost.mpr missing] at there
        cases there
      · intro notLost entry member
        rw [aliases] at member
        rcases (OrderedMap.mem_insert _).mp member with before | ⟨-, rfl⟩
        · exact old entry before
        · rw [← Bool.not_eq_false]
          exact fun missing => notLost ⟨absent, equal, lost.mp missing⟩
    · intro entry member missing
      rw [aliases] at member
      rcases (OrderedMap.mem_insert _).mp member with before | ⟨-, rfl⟩
      · rw [old entry before] at missing
        cases missing
      · exact unnamed

end Aliases

end Generators

/-! ### The configuration -/

namespace CpuConfig

section Saved
variable (union : Json → BitVec 32) (cpu : CpuInfo)

theorem assemblyToJSON_plain (assembly : CryptonightR.Assembly) :
    ((assemblyToJSON assembly).isArray || (assemblyToJSON assembly).isObject) = false := by
  cases assembly <;> rfl

theorem optionsToJSON_plain (config : CpuConfig) : ∀ member ∈ config.optionsToJSON, Threads.Plain member := by
  have names : ∀ name ∈ ["enabled", "huge-pages", "huge-pages-jit", "hw-aes", "priority", "memory-pool",
      "yield", "max-threads-hint", "asm", "argon2-impl"],
      (Algorithm.parse (some (Json.cString (text name)))).isValid = false := by decide +kernel
  have pages : ((if config.hugePageSize = 0 ∨ config.hugePageSize = kDefaultHugePageSizeKb then
      Json.bool config.isHugePages else .int config.hugePageSize).isArray ||
      (if config.hugePageSize = 0 ∨ config.hugePageSize = kDefaultHugePageSizeKb then
        Json.bool config.isHugePages else .int config.hugePageSize).isObject) = false := by
    split
    · rfl
    · rfl
  intro member listed
  unfold optionsToJSON at listed
  rcases List.mem_append.mp listed with front | ends
  · rcases List.mem_append.mp front with options | hint
    · simp only [List.mem_cons, List.not_mem_nil, or_false] at options
      rcases options with rfl | rfl | rfl | rfl | rfl | rfl | rfl
      · exact ⟨rfl, names "enabled" (by decide)⟩
      · exact ⟨pages, names "huge-pages" (by decide)⟩
      · exact ⟨rfl, names "huge-pages-jit" (by decide)⟩
      · refine ⟨?_, names "hw-aes" (by decide)⟩
        dsimp only
        split
        · rfl
        · rfl
      · refine ⟨?_, names "priority" (by decide)⟩
        dsimp only
        split
        · rfl
        · rfl
      · refine ⟨?_, names "memory-pool" (by decide)⟩
        dsimp only
        split
        · rfl
        · rfl
      · exact ⟨rfl, names "yield" (by decide)⟩
    · split at hint
      · cases List.mem_singleton.mp hint
        exact ⟨rfl, names "max-threads-hint" (by decide)⟩
      · cases hint
  · simp only [List.mem_cons, List.not_mem_nil, or_false] at ends
    rcases ends with rfl | rfl
    · exact ⟨assemblyToJSON_plain config.assembly, names "asm" (by decide)⟩
    · refine ⟨?_, names "argon2-impl" (by decide)⟩
      dsimp only
      cases config.argon2Impl with
      | none => rfl
      | some name => rfl

variable {union cpu}

theorem readOptions_kept (config : CpuConfig) (value : Json) :
    (config.readOptions value).enabled = value.getBool "enabled" config.enabled ∧
      (config.readOptions value).threads = config.threads ∧
      (config.readOptions value).shouldSave = config.shouldSave := by
  have aes (config : CpuConfig) (value : Json) : (config.setAesMode value).enabled = config.enabled ∧
      (config.setAesMode value).threads = config.threads ∧
      (config.setAesMode value).shouldSave = config.shouldSave := by
    unfold setAesMode
    split
    · exact ⟨rfl, rfl, rfl⟩
    · exact ⟨rfl, rfl, rfl⟩
  have pages (config : CpuConfig) (value : Json) : (config.setHugePages value).enabled = config.enabled ∧
      (config.setHugePages value).threads = config.threads ∧
      (config.setHugePages value).shouldSave = config.shouldSave := by
    unfold setHugePages
    split
    · exact ⟨rfl, rfl, rfl⟩
    · split
      · exact ⟨rfl, rfl, rfl⟩
      · exact ⟨rfl, rfl, rfl⟩
  have pool (config : CpuConfig) (value : Json) : (config.setMemoryPool value).enabled = config.enabled ∧
      (config.setMemoryPool value).threads = config.threads ∧
      (config.setMemoryPool value).shouldSave = config.shouldSave := by
    unfold setMemoryPool
    split
    · exact ⟨rfl, rfl, rfl⟩
    · split
      · exact ⟨rfl, rfl, rfl⟩
      · exact ⟨rfl, rfl, rfl⟩
  unfold readOptions setPriority
  dsimp only
  rw [(pool _ _).1, (pool _ _).2.1, (pool _ _).2.2, (pages _ _).1, (pages _ _).2.1, (pages _ _).2.2,
    (aes _ _).1, (aes _ _).2.1, (aes _ _).2.2]
  exact ⟨rfl, rfl, rfl⟩

theorem generate_cases (config : CpuConfig) :
    ((config.enabled = false ∨ config.threads.has Threads.kAsterisk = true) ∧
      config.generate union cpu = config) ∨
    (config.enabled = true ∧ config.threads.has Threads.kAsterisk = false ∧
      (config.generate union cpu).enabled = config.enabled ∧
      (config.generate union cpu).threads =
        (generateAll cpu (cpuThreadList union) config.limit config.threads).1 ∧
      (config.generate union cpu).shouldSave = (config.shouldSave ||
        decide (0 < (generateAll cpu (cpuThreadList union) config.limit config.threads).2))) := by
  unfold generate
  cases enabled : config.enabled with
  | false => exact .inl ⟨.inl rfl, rfl⟩
  | true =>
    cases asterisk : config.threads.has Threads.kAsterisk with
    | true => exact .inl ⟨.inr rfl, rfl⟩
    | false =>
      rw [Bool.not_true, Bool.false_or, if_neg Bool.false_ne_true]
      obtain ⟨threads, count⟩ := generateAll cpu (cpuThreadList union) config.limit config.threads
      exact .inr ⟨rfl, rfl, rfl, rfl, rfl⟩

theorem readGiven_kept (value : Json) :
    Threads.Kept (cpuThreadList union) (({} : CpuConfig).readGiven union value).threads ∧
      (({} : CpuConfig).readGiven union value).threads.Alive := by
  cases value with
  | obj members =>
    have options := (({} : CpuConfig).readOptions (.obj members)).threads
    have threads := (readOptions_kept {} (.obj members)).2.1
    change Threads.Kept _ (Threads.read (cpuThreadList union) (({} : CpuConfig).readOptions _).threads members) ∧
      (Threads.read (cpuThreadList union) (({} : CpuConfig).readOptions _).threads members).Alive
    rw [threads]
    exact ⟨Threads.kept_empty.read cpuThreadList_rereads members, Threads.Alive.read rfl members⟩
  | _ => exact ⟨Threads.kept_empty, fun entry member => by cases member⟩

theorem readGiven_toJSON {config : CpuConfig} (kept : Threads.Kept (cpuThreadList union) config.threads) :
    (({} : CpuConfig).readGiven union (config.toJSON union)).enabled = config.enabled ∧
      (({} : CpuConfig).readGiven union (config.toJSON union)).threads = config.threads.reread ∧
      (({} : CpuConfig).readGiven union (config.toJSON union)).shouldSave = false := by
  obtain ⟨members, same⟩ : ∃ members,
      members = config.optionsToJSON ++ config.threads.toJSON (cpuThreadList union) := ⟨_, rfl⟩
  have whole : config.toJSON union = .obj members := by
    unfold toJSON
    rw [same]
  have options := readOptions_kept {} (.obj members)
  have enabled : (Json.obj members).getBool "enabled" true = config.enabled := by
    have found : members.lookup "enabled" = some (.bool config.enabled) := by
      rw [same]
      exact List.lookup_cons_self
    unfold Json.getBool Json.findMember
    dsimp only
    rw [found]
    rfl
  rw [whole]
  refine ⟨options.1.trans enabled, ?_, options.2.2⟩
  change Threads.read (cpuThreadList union) (({} : CpuConfig).readOptions (.obj members)).threads members = _
  rw [options.2.1, same]
  exact Threads.read_toJSON cpuThreadList_rereads kept (optionsToJSON_plain config)

theorem generate_of_off {config : CpuConfig}
    (off : config.enabled = false ∨ config.threads.has Threads.kAsterisk = true) :
    config.generate union cpu = config := by
  unfold generate
  rcases off with off | there
  · rw [off]
    rfl
  · rw [there, Bool.or_true, if_pos rfl]

theorem generate_of_idle {config : CpuConfig}
    (idle : generateAll cpu (cpuThreadList union) config.limit config.threads = (config.threads, 0)) :
    (config.generate union cpu).threads = config.threads ∧
      (config.generate union cpu).shouldSave = config.shouldSave := by
  unfold generate
  split
  · exact ⟨rfl, rfl⟩
  · rw [idle]
    exact ⟨rfl, Bool.or_false _⟩

theorem read_toJSON (value : Json) :
    (({} : CpuConfig).read union cpu ((({} : CpuConfig).read union cpu value).toJSON union)).threads =
        (({} : CpuConfig).read union cpu value).threads.reread ∧
      (({} : CpuConfig).read union cpu ((({} : CpuConfig).read union cpu value).toJSON union)).shouldSave =
        false := by
  obtain ⟨kept, -⟩ := @readGiven_kept union value
  unfold read
  generalize ({} : CpuConfig).readGiven union value = given at kept
  rcases @generate_cases union cpu given with ⟨off, same⟩ | ⟨-, -, -, threads, -⟩
  · rw [same]
    obtain ⟨enabled, threads, fresh⟩ := readGiven_toJSON kept
    generalize ({} : CpuConfig).readGiven union (given.toJSON union) = back at enabled threads fresh ⊢
    rw [generate_of_off (by
      rw [enabled, threads]
      exact off)]
    exact ⟨threads, fresh⟩
  · have generated := foldl_kept (generators_settle cpu union) given.limit (given.threads, 0) kept
    change Threads.Kept _ (generateAll cpu (cpuThreadList union) given.limit given.threads).1 at generated
    rw [← threads] at generated
    obtain ⟨-, same, fresh⟩ := readGiven_toJSON generated
    have grows := Threads.grows_reread (given.generate union cpu).threads
    rw [threads] at grows
    generalize ({} : CpuConfig).readGiven union ((given.generate union cpu).toJSON union) = back at same fresh ⊢
    have idle := generateAll_idle cpu union given.limit back.limit given.threads grows
    rw [← threads, ← same] at idle
    obtain ⟨unchanged, unsaved⟩ := generate_of_idle idle
    rw [unchanged, unsaved]
    exact ⟨same, fresh⟩

/-- The saved configuration gives every algorithm the threads that it had, the same algorithms are
off or aliases, and it is not saved again. -/
def SavedFixed (union : Json → BitVec 32) (cpu : CpuInfo) (config : CpuConfig) : Prop :=
  let again := ({} : CpuConfig).read union cpu (config.toJSON union)
  (∀ algorithm strict, again.threads.get (cpuThreadList union) algorithm strict =
    config.threads.get (cpuThreadList union) algorithm strict) ∧
  again.threads.aliases = config.threads.aliases ∧ again.threads.disabled = config.threads.disabled ∧
  again.shouldSave = false

/-- Profiles are generated, and `rx/arq` gets the alias `rx/wow` without there being such a profile. -/
def GeneratesLost (cpu : CpuInfo) (given : CpuConfig) : Prop :=
  given.enabled = true ∧ given.threads.has Threads.kAsterisk = false ∧
    LosesAlias cpu given.limit given.threads

/-- Which aliases of a configuration are without a profile. -/
theorem read_aliases (value : Json) :
    AliasesOf (GeneratesLost cpu (({} : CpuConfig).readGiven union value))
      (({} : CpuConfig).read union cpu value).threads := by
  obtain ⟨-, alive⟩ := @readGiven_kept union value
  unfold read
  generalize ({} : CpuConfig).readGiven union value = given at alive ⊢
  rcases @generate_cases union cpu given with ⟨off, same⟩ | ⟨on, asterisk, -, threads, -⟩
  · rw [same]
    refine ⟨iff_of_true alive ?_, fun entry member missing => ?_⟩
    · rintro ⟨on, asterisk, -⟩
      rcases off with off | there
      · rw [on] at off
        cases off
      · rw [asterisk] at there
        cases there
    · rw [alive entry member] at missing
      cases missing
  · rw [threads]
    have aliases := @generateAll_aliases cpu union given.limit given.threads alive
    refine ⟨aliases.alive.trans (not_congr ?_), aliases.unnamed⟩
    exact ⟨fun lost => ⟨on, asterisk, lost⟩, fun lost => lost.2.2⟩

/-- Threads and the flag are kept whatever was read; the aliases are kept exactly where the
generator gives none to a profile that is missing. -/
theorem read_savedFixed_iff (union : Json → BitVec 32) (cpu : CpuInfo) (value : Json) :
    SavedFixed union cpu (({} : CpuConfig).read union cpu value) ↔
      ¬ GeneratesLost cpu (({} : CpuConfig).readGiven union value) := by
  obtain ⟨threads, fresh⟩ := @read_toJSON union cpu value
  have aliases := @read_aliases union cpu value
  rw [← aliases.alive, ← Threads.reread_eq_iff]
  unfold SavedFixed
  dsimp only
  rw [threads, fresh]
  constructor
  · rintro ⟨-, same, disabled, -⟩
    exact ⟨same, disabled⟩
  · rintro ⟨same, disabled⟩
    refine ⟨fun algorithm strict => ?_, same, disabled, rfl⟩
    apply Threads.get_reread
    intro profile member missing
    exact aliases.unnamed (algorithm, profile) member missing

/-- On a machine with one hardware thread that does not mine `rx/wow`, the alias of `rx/arq` is read
back as an algorithm that is off. -/
theorem rxWow_off_not_fixed :
    ¬ SavedFixed (fun _ => 0) (basicCpuInfo 1)
      (({} : CpuConfig).read (fun _ => 0) (basicCpuInfo 1) (.obj [("rx/wow", .bool false)])) := by
  have lost :
      let config := ({} : CpuConfig).read (fun _ => 0) (basicCpuInfo 1) (.obj [("rx/wow", .bool false)])
      let again := ({} : CpuConfig).read (fun _ => 0) (basicCpuInfo 1) (config.toJSON fun _ => 0)
      config.threads.isDisabled .rxArq = false ∧ again.threads.isDisabled .rxArq = true := by
    decide +kernel
  rintro ⟨-, -, disabled, -⟩
  obtain ⟨before, after⟩ := lost
  unfold Threads.isDisabled at before after
  rw [disabled, before] at after
  cases after

end Saved

end CpuConfig

end Profiles

end Xmrig
