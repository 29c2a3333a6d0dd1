import Xmrig.Cryptonote.BlockTemplate
import Xmrig.Foundation.MerkleTree

/-! The Merkle tree of the transactions of a block template.

The tree is computed in place in `ints`; a job recomputes its root from the hash of the
miner transaction and the branch. Both are compared with the tree over the list of hashes.
-/

set_option autoImplicit false

namespace Xmrig.BlockTemplate

open Foundation

/-- The loop of `calculateRootHash`, for `i += kHashSize`. -/
def climb (keccak : List Byte → List Byte) (branch : List Byte) : (rounds i : Nat) → List Byte → List Byte
  | 0, _, rootHash => rootHash
  | rounds + 1, i, rootHash =>
    if i < branch.length then climb keccak branch rounds (i + 32) (keccak (rootHash ++ (branch.drop i).take 32))
    else rootHash

def calculateRootHash (keccak : List Byte → List Byte) (prefixBytes branch : List Byte) : List Byte :=
  climb keccak branch branch.length 0 (calculateMinerTxHash keccak prefixBytes)

section Tree
variable (keccak : List Byte → List Byte)

def node (first second : List Byte) : List Byte := keccak (first ++ second)

variable {keccak}

theorem climb_flatten {front : List Byte} {siblings : List (List Byte)} {rounds : Nat}
    (whole : ∀ sibling ∈ siblings, sibling.length = 32) (enough : siblings.length ≤ rounds) (rootHash : List Byte) :
    climb keccak (front ++ siblings.flatten) rounds front.length rootHash = siblings.foldl (node keccak) rootHash := by
  induction siblings generalizing front rounds rootHash with
  | nil =>
    cases rounds with
    | zero => rfl
    | succ rounds =>
      unfold climb
      rw [List.flatten_nil, List.append_nil, if_neg (Nat.lt_irrefl _)]
      rfl
  | cons sibling rest ih =>
    obtain ⟨size, whole⟩ := List.forall_mem_cons.mp whole
    cases rounds with
    | zero => exact absurd enough (Nat.not_succ_le_zero _)
    | succ rounds =>
      have inside : front.length < (front ++ (sibling :: rest).flatten).length := by
        simp only [List.length_append, List.flatten_cons, size]
        omega
      have here : ((front ++ (sibling :: rest).flatten).drop front.length).take 32 = sibling := by
        rw [List.drop_left, List.flatten_cons]
        exact List.take_left' size
      have next := @ih (front ++ sibling) rounds whole (Nat.le_of_succ_le_succ enough) (node keccak rootHash sibling)
      rw [List.append_assoc, ← List.flatten_cons, List.length_append, size] at next
      unfold climb
      rw [if_pos inside, here]
      exact next

/-- A loop of `while (cnt > 2)`: the pairs are read before their place is overwritten. -/
theorem pairUp_above (level : Nat → List Byte) {rounds j : Nat} {tree : Tree}
    (here : ∀ i, tree.ints i = if i < j then above (node keccak) level i else level i) :
    (∀ i, (pairUp keccak (fun t => t.ints) rounds (2 * j) j tree).ints i =
        if i < j + rounds then above (node keccak) level i else level i) ∧
      (pairUp keccak (fun t => t.ints) rounds (2 * j) j tree).branch =
        if j = 0 ∧ 0 < rounds then tree.branch ++ level 1 else tree.branch := by
  induction rounds generalizing j tree with
  | zero => exact ⟨here, (if_neg fun both => Nat.lt_irrefl 0 both.2).symm⟩
  | succ rounds ih =>
    have left : tree.ints (2 * j) = level (2 * j) := by rw [here, if_neg (by omega)]
    have right : tree.ints (2 * j + 1) = level (2 * j + 1) := by rw [here, if_neg (by omega)]
    unfold pairUp
    dsimp only
    rw [left, right]
    have next := @ih (j + 1)
      ⟨Function.update tree.ints j (keccak (level (2 * j) ++ level (2 * j + 1))),
        if 2 * j = 0 then tree.branch ++ tree.ints 1 else tree.branch⟩ (fun i => by
          dsimp only
          by_cases same : i = j
          · subst same
            rw [Function.update_self, if_pos (Nat.lt_succ_self i)]
            rfl
          · rw [Function.update_of_ne same, here]
            by_cases done : i < j
            · rw [if_pos done, if_pos (Nat.lt_succ_of_lt done)]
            · rw [if_neg done, if_neg (by omega)])
    rw [Nat.mul_succ] at next
    refine ⟨fun i => ?_, ?_⟩
    · rw [next.1, Nat.add_right_comm]
      rfl
    · rw [next.2, if_neg (fun both => Nat.succ_ne_zero _ both.1)]
      by_cases first : j = 0
      · subst first
        rw [if_pos rfl, if_pos ⟨rfl, Nat.succ_pos _⟩, here 1, if_neg (by decide)]
      · rw [if_neg (by omega), if_neg fun both => first both.1]

/-- The first loop reads the table, and it never gets to the first two hashes. -/
theorem pairUp_table (leaf : Nat → List Byte) {rounds i j : Nat} {tree : Tree} (later : 0 < i) :
    (∀ m, (pairUp keccak (fun _ => leaf) rounds i j tree).ints m =
        if j ≤ m ∧ m < j + rounds then node keccak (leaf (i + 2 * (m - j))) (leaf (i + 2 * (m - j) + 1))
        else tree.ints m) ∧
      (pairUp keccak (fun _ => leaf) rounds i j tree).branch = tree.branch := by
  induction rounds generalizing i j tree with
  | zero =>
    refine ⟨fun m => ?_, rfl⟩
    rw [if_neg (by omega)]
    rfl
  | succ rounds ih =>
    unfold pairUp
    dsimp only
    rw [if_neg (Nat.ne_of_gt later)]
    have next := @ih (i + 2) (j + 1) ⟨Function.update tree.ints j (keccak (leaf i ++ leaf (i + 1))), tree.branch⟩
      (Nat.add_pos_left later 2)
    refine ⟨fun m => ?_, next.2⟩
    rw [next.1 m]
    dsimp only
    by_cases first : m = j
    · subst first
      rw [if_neg (by omega), if_pos (by omega), Nat.sub_self, Function.update_self]
      rfl
    · rw [Function.update_of_ne first]
      by_cases inside : j ≤ m ∧ m < j + (rounds + 1)
      · have moved : i + 2 + 2 * (m - (j + 1)) = i + 2 * (m - j) := by omega
        rw [if_pos (by omega), if_pos inside, moved]
      · rw [if_neg (by omega), if_neg inside]

theorem levels_step {rounds cnt : Nat} (more : 2 < cnt) (tree : Tree) : levels keccak (rounds + 1) cnt tree =
    levels keccak rounds (cnt / 2) (pairUp keccak (fun t => t.ints) (cnt / 2) 0 0 tree) := if_pos more

theorem levels_root {k rounds : Nat} (enough : k ≤ rounds) (tree : Tree) :
    node keccak ((levels keccak rounds (2 ^ (k + 1)) tree).ints 0) ((levels keccak rounds (2 ^ (k + 1)) tree).ints 1) =
        root (node keccak) (k + 1) tree.ints ∧
      (levels keccak rounds (2 ^ (k + 1)) tree).branch ++ (levels keccak rounds (2 ^ (k + 1)) tree).ints 1 =
        tree.branch ++ (branch (node keccak) (k + 1) tree.ints).flatten := by
  induction k generalizing rounds tree with
  | zero =>
    have stays : levels keccak rounds (2 ^ (0 + 1)) tree = tree := by
      cases rounds with
      | zero => rfl
      | succ rounds => exact if_neg (by decide)
    rw [stays]
    exact ⟨rfl, by simp [branch]⟩
  | succ k ih =>
    cases rounds with
    | zero => exact absurd enough (Nat.not_succ_le_zero _)
    | succ rounds =>
      have positive : 0 < 2 ^ k := Nat.two_pow_pos k
      have size : 2 ^ (k + 1 + 1) = 2 * 2 ^ (k + 1) := Nat.pow_succ'
      have half : 2 ^ (k + 1) = 2 * 2 ^ k := Nat.pow_succ'
      have more : levels keccak (rounds + 1) (2 ^ (k + 1 + 1)) tree =
          levels keccak rounds (2 ^ (k + 1)) (pairUp keccak (fun t => t.ints) (2 ^ (k + 1)) 0 0 tree) := by
        have halved : 2 ^ (k + 1 + 1) / 2 = 2 ^ (k + 1) := by omega
        rw [levels_step (by omega), halved]
      obtain ⟨ints, kept⟩ := @pairUp_above keccak tree.ints (2 ^ (k + 1)) 0 tree
        (fun i => (if_neg (Nat.not_lt_zero i)).symm)
      rw [Nat.mul_zero] at ints kept
      rw [if_pos ⟨rfl, by omega⟩] at kept
      have level : ∀ i < 2 ^ (k + 1), (pairUp keccak (fun t => t.ints) (2 ^ (k + 1)) 0 0 tree).ints i =
          above (node keccak) tree.ints i := by
        intro i inside
        rw [ints i, if_pos (by omega)]
      obtain ⟨hash, siblings⟩ := ih (Nat.le_of_succ_le_succ enough)
        (pairUp keccak (fun t => t.ints) (2 ^ (k + 1)) 0 0 tree)
      rw [more, hash, siblings, root_congr level, branch_congr level, kept]
      refine ⟨rfl, ?_⟩
      rw [List.append_assoc]
      rfl

theorem doubled_eq {count rounds j : Nat} (positive : count ≠ 0) (below : j ≤ Nat.log2 count + 1)
    (enough : Nat.log2 count + 1 ≤ j + rounds) : doubled count rounds (2 ^ j) = 2 ^ (Nat.log2 count + 1) := by
  induction rounds generalizing j with
  | zero =>
    have same : j = Nat.log2 count + 1 := by omega
    rw [same]
    rfl
  | succ rounds ih =>
    unfold doubled
    by_cases inside : 2 ^ j ≤ count
    · have less : j ≤ Nat.log2 count := (Nat.le_log2 positive).mpr inside
      rw [if_pos inside, ← Nat.pow_succ']
      exact ih (by omega) (by omega)
    · have more : ¬j ≤ Nat.log2 count := fun less => inside ((Nat.le_log2 positive).mp less)
      have same : j = Nat.log2 count + 1 := by omega
      rw [if_neg inside, same]

theorem leafCount_eq {count : Nat} (positive : count ≠ 0) (word : count < 2 ^ 63) :
    leafCount count = 2 ^ Nat.log2 count := by
  have small : Nat.log2 count < 63 := (Nat.log2_lt positive).mpr word
  have found := @doubled_eq count 64 0 positive (Nat.zero_le _) (by omega)
  unfold leafCount
  rw [show (1 : Nat) = 2 ^ 0 from rfl, found, Nat.pow_succ]
  exact Nat.mul_div_cancel _ (by decide)

theorem flatten_length {leaves : List (List Byte)} (sized : ∀ leaf ∈ leaves, leaf.length = 32) :
    leaves.flatten.length = 32 * leaves.length := by
  induction leaves with
  | nil => rfl
  | cons leaf rest ih =>
    obtain ⟨size, sized⟩ := List.forall_mem_cons.mp sized
    rw [List.flatten_cons, List.length_append, size, ih sized, List.length_cons]
    omega

theorem map_hashAt {leaves : List (List Byte)} (sized : ∀ leaf ∈ leaves, leaf.length = 32) :
    (List.range leaves.length).map (hashAt leaves.flatten) = leaves := by
  induction leaves with
  | nil => rfl
  | cons leaf rest ih =>
    obtain ⟨size, sized⟩ := List.forall_mem_cons.mp sized
    have head : hashAt (leaf :: rest).flatten 0 = leaf := by
      unfold hashAt
      rw [Nat.zero_mul, List.drop_zero, List.flatten_cons]
      exact List.take_left' size
    have tail : (fun i => hashAt (leaf :: rest).flatten (i + 1)) = hashAt rest.flatten := by
      funext i
      unfold hashAt
      rw [List.flatten_cons, Nat.succ_mul, Nat.add_comm, ← List.drop_drop, List.drop_left' size]
    rw [List.length_cons, List.range_succ_eq_map, List.map_cons, List.map_map, head]
    exact congrArg _ ((congrArg (List.map · (List.range rest.length)) tail).trans (ih sized))

theorem merkleTree_eq {leaves : List (List Byte)} (sized : ∀ leaf ∈ leaves, leaf.length = 32)
    (hash32 : ∀ bytes, (keccak bytes).length = 32) (positive : leaves.length ≠ 0) (word : leaves.length < 2 ^ 63) :
    treeHash (node keccak) leaves = some (merkleTree keccak leaves.flatten leaves.length).2 ∧
      ∃ siblings : List (List Byte), (merkleTree keccak leaves.flatten leaves.length).1 = siblings.flatten ∧
        (∀ sibling ∈ siblings, sibling.length = 32) ∧
        siblings.foldl (node keccak) (hashAt leaves.flatten 0) = (merkleTree keccak leaves.flatten leaves.length).2 := by
  obtain ⟨leaf, isLeaf⟩ : ∃ leaf, leaf = hashAt leaves.flatten := ⟨_, rfl⟩
  obtain ⟨count, isCount⟩ : ∃ count, count = leaves.length := ⟨_, rfl⟩
  have listed : leaves = (List.range count).map leaf := by
    rw [isLeaf, isCount, map_hashAt sized]
  have leafSized : ∀ i < count, (leaf i).length = 32 := by
    intro i inside
    apply sized
    rw [listed]
    exact List.mem_map_of_mem (List.mem_range.mpr inside)
  obtain ⟨kept, isKept⟩ : ∃ kept, kept = 2 * 2 ^ Nat.log2 count - count := ⟨_, rfl⟩
  obtain ⟨level, isLevel⟩ : ∃ level : Nat → List Byte, level = fun i =>
      if i < kept then leaf i else node keccak (leaf (kept + 2 * (i - kept))) (leaf (kept + 2 * (i - kept) + 1)) :=
    ⟨_, rfl⟩
  rw [← isCount] at positive word ⊢
  rw [← isLeaf]
  have least : 2 ^ Nat.log2 count ≤ count := Nat.log2_self_le positive
  have most : count < 2 ^ (Nat.log2 count + 1) := Nat.lt_log2_self
  rw [Nat.pow_succ'] at most
  have first : 0 < kept := by omega
  have hashed : treeHash (node keccak) leaves = some (root (node keccak) (Nat.log2 count) level) := by
    have full := @fullLevel_map_range _ (node keccak) leaf count kept (Nat.pos_of_ne_zero positive) isKept
    rw [← listed, ← isLevel] at full
    rw [isCount] at full ⊢
    exact treeHash_eq full
  have zero : level 0 = leaf 0 := by
    rw [isLevel]
    exact if_pos first
  have siblings : ∀ sibling ∈ branch (node keccak) (Nat.log2 count) level, sibling.length = 32 := by
    apply @branch_forall _ (node keccak) (fun hash => hash.length = 32) (fun _ _ => hash32 _)
    intro high
    have two : 2 ^ 1 ≤ 2 ^ Nat.log2 count := Nat.pow_le_pow_right Nat.two_pos high
    rw [isLevel]
    dsimp only
    split
    · exact leafSized 1 (by omega)
    · exact hash32 _
  have folded := @foldl_branch _ (node keccak) (Nat.log2 count) level
  rw [zero] at folded
  -- the branch and the root are those of the full level, whatever the number of hashes is
  suffices made : merkleTree keccak leaves.flatten count =
      ((branch (node keccak) (Nat.log2 count) level).flatten, root (node keccak) (Nat.log2 count) level) by
    rw [made]
    exact ⟨hashed, _, rfl, siblings, folded⟩
  unfold merkleTree
  dsimp only
  rw [← isLeaf]
  by_cases one : count = 1
  · have height : Nat.log2 count = 0 := by
      rw [one]
      decide
    rw [if_pos one, height]
    exact Prod.ext rfl zero.symm
  · rw [if_neg one]
    have high : 1 ≤ Nat.log2 count := (Nat.le_log2 positive).mpr (by omega)
    obtain ⟨k, height⟩ : ∃ k, Nat.log2 count = k + 1 := ⟨Nat.log2 count - 1, by omega⟩
    by_cases two : count = 2
    · have height : Nat.log2 count = 1 := by
        rw [two]
        decide
      have second : level 1 = leaf 1 := by
        rw [isLevel]
        exact if_pos (by rw [isKept, height]; omega)
      have path : (branch (node keccak) 1 level).flatten = leaf 1 := by
        rw [← second]
        exact List.append_nil _
      have pair : root (node keccak) 1 level = keccak (leaf 0 ++ leaf 1) := by
        rw [← zero, ← second]
        rfl
      rw [if_pos two, height, path, pair]
    · rw [if_neg two, leafCount_eq positive word, Nat.mul_comm, ← isKept]
      obtain ⟨ints, empty⟩ := @pairUp_table keccak leaf (2 ^ Nat.log2 count - kept) kept kept
        ⟨fun m => if m < kept then leaf m else List.replicate 32 0, []⟩ first
      have full : ∀ m < 2 ^ Nat.log2 count, (pairUp keccak (fun _ => leaf) (2 ^ Nat.log2 count - kept) kept kept
          ⟨fun m => if m < kept then leaf m else List.replicate 32 0, []⟩).ints m = level m := by
        intro m inside
        rw [ints m, isLevel]
        dsimp only
        by_cases front : m < kept
        · rw [if_neg (by omega), if_pos front, if_pos front]
        · rw [if_pos (by omega), if_neg front]
      obtain ⟨hash, path⟩ := @levels_root keccak k 64 (by
        have small : Nat.log2 count < 63 := (Nat.log2_lt positive).mpr word
        omega) (pairUp keccak (fun _ => leaf) (2 ^ Nat.log2 count - kept) kept kept
          ⟨fun m => if m < kept then leaf m else List.replicate 32 0, []⟩)
      rw [← height, root_congr full] at hash
      rw [← height, branch_congr full, empty, List.nil_append] at path
      exact Prod.ext path hash

end Tree

theorem exec_update (wrap : Nat → Nat) (env : Env) (change : Parsed → Parsed) (state : Parsing) :
    exec (handle wrap env) (stage (update change)) state = (.ok (), { state with parsed := change state.parsed }) := rfl

theorem exec_readParsed (wrap : Nat → Nat) (env : Env) (state : Parsing) :
    exec (handle wrap env) readParsed state = (.ok state.parsed, state) := rfl

/-- What `calculateMerkleTreeHash` writes when it has the memory for it. -/
theorem exec_calculateMerkleTreeHash {wrap : Nat → Nat} {env : Env} {state : Parsing} {count : Nat}
    (counted : (state.parsed.numHashes + 1).toNat = count)
    (memory : 2 < count → env.allocates (leafCount count * 32) = true) :
    exec (handle wrap env) (calculateMerkleTreeHash env) state = (.ok (), { state with parsed := { state.parsed with
      minerTxMerkleTreeBranch := (merkleTree env.keccak state.parsed.hashes count).1
      rootHash := (merkleTree env.keccak state.parsed.hashes count).2 } }) := by
  unfold calculateMerkleTreeHash
  rw [exec_bind_ok (exec_update wrap env _ state), exec_bind_ok (exec_readParsed wrap env _)]
  dsimp only
  rw [counted]
  by_cases large : 2 < count
  · have granted : exec (handle wrap env) (allocate (leafCount count * 32))
        { state with parsed := { state.parsed with minerTxMerkleTreeBranch := [] } } =
          (.ok (), { state with parsed := { state.parsed with minerTxMerkleTreeBranch := [] } }) :=
      (exec_perform (I := interface) _ _).trans (if_pos (memory large))
    rw [if_pos large, exec_bind_ok granted]
    exact exec_update wrap env _ _
  · rw [if_neg large]
    exact exec_update wrap env _ _

/-- `calculateMerkleTreeHash` on a table of whole hashes, the first of them that of the miner
transaction: the tree over the hashes, and a branch that leads to the same root. -/
theorem calculateMerkleTreeHash_root {wrap : Nat → Nat} {env : Env} {state : Parsing} {prefixBytes : List Byte}
    {others : List (List Byte)} (hash32 : ∀ bytes, (env.keccak bytes).length = 32)
    (sized : ∀ hash ∈ others, hash.length = 32)
    (table : state.parsed.hashes = (calculateMinerTxHash env.keccak prefixBytes :: others).flatten)
    (vector : state.parsed.hashes.length < 2 ^ 63) (counted : state.parsed.numHashes.toNat = others.length)
    (memory : env.allocates (leafCount (others.length + 1) * 32) = true) :
    ∃ after, exec (handle wrap env) (calculateMerkleTreeHash env) state = (.ok (), after) ∧
      treeHash (node env.keccak) (calculateMinerTxHash env.keccak prefixBytes :: others) = some after.parsed.rootHash ∧
      calculateRootHash env.keccak prefixBytes after.parsed.minerTxMerkleTreeBranch = after.parsed.rootHash := by
  have minerSized : (calculateMinerTxHash env.keccak prefixBytes).length = 32 := hash32 _
  obtain ⟨leaves, isLeaves⟩ : ∃ leaves, leaves = calculateMinerTxHash env.keccak prefixBytes :: others := ⟨_, rfl⟩
  have leafSized : ∀ leaf ∈ leaves, leaf.length = 32 := by
    rw [isLeaves]
    exact List.forall_mem_cons.mpr ⟨minerSized, sized⟩
  have number : leaves.length = others.length + 1 := by rw [isLeaves, List.length_cons]
  have total := flatten_length leafSized
  rw [← isLeaves] at table ⊢
  rw [table, total] at vector
  have count : (state.parsed.numHashes + 1).toNat = leaves.length := by
    rw [BitVec.toNat_add, counted, number]
    exact Nat.mod_eq_of_lt (show others.length + 1 < 2 ^ 64 by omega)
  have first : hashAt leaves.flatten 0 = calculateMinerTxHash env.keccak prefixBytes := by
    rw [isLeaves, hashAt, Nat.zero_mul, List.drop_zero, List.flatten_cons]
    exact List.take_left' minerSized
  obtain ⟨hashed, siblings, path, whole, folded⟩ := merkleTree_eq leafSized hash32 (by omega) (by omega)
  refine ⟨_, exec_calculateMerkleTreeHash count fun _ => number ▸ memory, ?_, ?_⟩
  · rw [table]
    exact hashed
  · rw [table]
    dsimp only
    have enough : siblings.length ≤ siblings.flatten.length := by
      rw [flatten_length whole]
      omega
    have climbed := @climb_flatten env.keccak [] siblings siblings.flatten.length whole enough
      (calculateMinerTxHash env.keccak prefixBytes)
    rw [List.nil_append] at climbed
    unfold calculateRootHash
    rw [path, ← folded, first]
    exact climbed

/-- Keccak on the inputs that the tree over `sampleOthers` has; other inputs do not matter here. -/
def sampleKeccak (bytes : List Byte) : List Byte :=
  if bytes = [] then
    [0xc5, 0xd2, 0x46, 0x01, 0x86, 0xf7, 0x23, 0x3c, 0x92, 0x7e, 0x7d, 0xb2, 0xdc, 0xc7, 0x03, 0xc0,
    0xe5, 0x00, 0xb6, 0x53, 0xca, 0x82, 0x27, 0x3b, 0x7b, 0xfa, 0xd8, 0x04, 0x5d, 0x85, 0xa4, 0x70]
  else if bytes.length = 96 then
    [0x06, 0x0d, 0x6e, 0x4b, 0x73, 0x59, 0x9a, 0x85, 0xc5, 0xf3, 0x3c, 0xe3, 0xf9, 0x38, 0x79, 0xcc,
    0xab, 0x23, 0xe7, 0x61, 0xdc, 0xde, 0x49, 0x91, 0xcc, 0xb4, 0x11, 0x51, 0x87, 0xfa, 0x44, 0x0e]
  else if bytes = List.replicate 32 1 ++ List.replicate 32 2 then
    [0x34, 0x6d, 0x8c, 0x96, 0xa2, 0x45, 0x42, 0x13, 0xfc, 0xc0, 0xda, 0xff, 0x3c, 0x96, 0xad, 0x03,
    0x98, 0x14, 0x81, 0x81, 0xb9, 0xfa, 0x64, 0x88, 0xf7, 0xae, 0x2c, 0x0a, 0xf5, 0xb2, 0x0a, 0xa0]
  else
    [0x04, 0x58, 0xb3, 0x50, 0x18, 0x7b, 0xdc, 0x07, 0xf8, 0x6c, 0x5f, 0xb6, 0xd4, 0xee, 0x66, 0x6d,
    0xb5, 0xb0, 0xdc, 0x44, 0x1e, 0x48, 0x9f, 0x8b, 0xdf, 0x06, 0xfc, 0xdc, 0xac, 0xb8, 0x99, 0x7c]

def sampleEnv : Env := ⟨sampleKeccak, fun _ => true⟩

/-- Two transactions next to the miner transaction, whose prefix is empty. -/
def sampleOthers : List (List Byte) := [List.replicate 32 1, List.replicate 32 2]

def sampleState : Parsing := .start ⟨[], by decide⟩
  { numHashes := 2, hashes := (calculateMinerTxHash sampleKeccak [] :: sampleOthers).flatten }

theorem sampleKeccak_length (bytes : List Byte) : (sampleKeccak bytes).length = 32 := by
  unfold sampleKeccak
  split
  · rfl
  · split
    · rfl
    · split <;> rfl

/-- Three hashes: the first leaf is kept and the others are paired. -/
theorem sampleOthers_root :
    ∃ after, exec (handle sizeT sampleEnv) (calculateMerkleTreeHash sampleEnv) sampleState = (.ok (), after) ∧
      treeHash (node sampleKeccak) (calculateMinerTxHash sampleKeccak [] :: sampleOthers) =
        some after.parsed.rootHash ∧
      calculateRootHash sampleKeccak [] after.parsed.minerTxMerkleTreeBranch = after.parsed.rootHash := by
  have sized : ∀ hash ∈ sampleOthers, hash.length = 32 := by decide
  have total := flatten_length (List.forall_mem_cons.mpr ⟨sampleKeccak_length _, sized⟩ :
    ∀ leaf ∈ calculateMinerTxHash sampleKeccak [] :: sampleOthers, leaf.length = 32)
  have vector : sampleState.parsed.hashes.length < 2 ^ 63 := by
    change (calculateMinerTxHash sampleKeccak [] :: sampleOthers).flatten.length < 2 ^ 63
    rw [total]
    decide
  exact @calculateMerkleTreeHash_root sizeT sampleEnv sampleState [] sampleOthers sampleKeccak_length sized rfl vector
    rfl rfl

end Xmrig.BlockTemplate
