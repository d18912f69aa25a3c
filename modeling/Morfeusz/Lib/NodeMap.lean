import Mathlib.Data.List.Sort

/-!
# Maps of nodes

A map with ordered keys that may hold a key more than once, as the list of its nodes. Each
node lies at a place of its own, and an iterator is the place of a node. To insert puts a
new node behind those of its key, and to erase takes one node out; both leave all other
nodes where they are, so that the iterators to them stay good. What is read through the
iterator to a node that was erased is whatever now lies there.

Programs walk through such a map and change it on the way. What the operations do is
therefore said where the walk stands: for the nodes before a node, the node, and those
ahead of it.
-/

/-- A node: where it lies and what it holds. -/
structure Node (K V : Type*) where
  place : ℕ
  key : K
  value : V
  deriving DecidableEq

/-- A memory, which gives out places that are not in use. -/
structure Allocator where
  alloc : List ℕ → ℕ
  fresh : ∀ used, alloc used ∉ used

/-- A map: its nodes in the order of their keys. -/
structure NodeMap (K V : Type*) [LinearOrder K] where
  nodes : List (Node K V)
  distinct : (nodes.map Node.place).Nodup
  sorted : nodes.Pairwise fun a b => a.key ≤ b.key

namespace NodeMap

/-- A read through an iterator: its place, and the places of the nodes there are then. -/
structure Read where
  place : ℕ
  live : List ℕ

/-- There is a node where the iterator points. -/
def Read.Live (read : Read) : Prop := read.place ∈ read.live

instance (read : Read) : Decidable read.Live := inferInstanceAs (Decidable (_ ∈ _))

/-- A memory that gives out the place above all that are in use. -/
def topAllocator : Allocator where
  alloc used := used.foldr max 0 + 1
  fresh used := by
    have hle : ∀ p ∈ used, p ≤ used.foldr max 0 := by
      induction used with
      | nil => simp
      | cons q used ih =>
        intro p hp
        rcases List.mem_cons.mp hp with rfl | hp
        · exact le_max_left _ _
        · exact (ih p hp).trans (le_max_right _ _)
    intro hmem
    exact Nat.not_succ_le_self _ (hle _ hmem)

variable {K V : Type*} [LinearOrder K]

theorem ext_nodes {m m' : NodeMap K V} (h : m.nodes = m'.nodes) : m = m' := by
  obtain ⟨ns, hd, hs⟩ := m
  obtain ⟨ns', hd', hs'⟩ := m'
  obtain rfl : ns = ns' := h
  rfl

/-- The map without a node. -/
def empty : NodeMap K V := ⟨[], List.nodup_nil, List.Pairwise.nil⟩

/-- The places of the nodes. -/
def places (m : NodeMap K V) : List ℕ := m.nodes.map Node.place

/-- What the map holds, without where. -/
def entries (m : NodeMap K V) : List (K × V) := m.nodes.map fun node => (node.key, node.value)

variable {m : NodeMap K V} {node new : Node K V} {before ahead ns : List (Node K V)} {p : ℕ}

/-! ### Iterators -/

/-- The node an iterator points to. -/
def node? (m : NodeMap K V) (p : ℕ) : Option (Node K V) :=
  m.nodes.find? fun node => node.place = p

/-- The iterator to the next node, if there is one. -/
def next (m : NodeMap K V) (p : ℕ) : Option ℕ :=
  ((m.nodes.dropWhile fun node => node.place ≠ p).drop 1).head?.map Node.place

theorem node?_eq_none (h : p ∉ m.places) : m.node? p = none := by
  rw [node?, List.find?_eq_none]
  intro node hmem hp
  exact h (List.mem_map.mpr ⟨node, hmem, of_decide_eq_true hp⟩)

/-- No node before another lies where that does. -/
theorem place_ne_of_before (h : m.nodes = before ++ node :: ahead) :
    ∀ other ∈ before, other.place ≠ node.place := by
  have hdistinct := m.distinct
  rw [h, List.map_append, List.map_cons, List.nodup_append] at hdistinct
  intro other hmem
  exact hdistinct.2.2 _ (List.mem_map_of_mem hmem) _ List.mem_cons_self

theorem place_ne_of_ahead (h : m.nodes = before ++ node :: ahead) :
    ∀ other ∈ ahead, other.place ≠ node.place := by
  have hdistinct := m.distinct
  rw [h, List.map_append, List.map_cons, List.nodup_append, List.nodup_cons] at hdistinct
  intro other hmem heq
  exact hdistinct.2.1.1 (heq ▸ List.mem_map_of_mem hmem)

theorem node?_of_nodes_eq (h : m.nodes = before ++ node :: ahead) :
    m.node? node.place = some node := by
  have hnone : before.find? (fun other => other.place = node.place) = none := by
    rw [List.find?_eq_none]
    intro other hmem hother
    exact place_ne_of_before h other hmem (of_decide_eq_true hother)
  rw [node?, h, List.find?_append, hnone, List.find?_cons_of_pos (by simp)]
  rfl

theorem next_of_nodes_eq (h : m.nodes = before ++ node :: ahead) :
    m.next node.place = ahead.head?.map Node.place := by
  have hdrop : (before ++ node :: ahead).dropWhile (fun other => other.place ≠ node.place) =
      node :: ahead := by
    rw [List.dropWhile_append_of_pos, List.dropWhile_cons_of_neg (by simp)]
    intro other hmem
    simpa using place_ne_of_before h other hmem
  rw [next, h, hdrop]
  rfl

/-! ### Erasing -/

/-- The nodes that meet a condition are kept. -/
def filter (m : NodeMap K V) (keep : Node K V → Bool) : NodeMap K V where
  nodes := m.nodes.filter keep
  distinct := m.distinct.sublist (List.filter_sublist.map _)
  sorted := m.sorted.sublist List.filter_sublist

theorem nodes_filter (m : NodeMap K V) (keep : Node K V → Bool) :
    (m.filter keep).nodes = m.nodes.filter keep := rfl

/-- One node is erased. -/
def erase (m : NodeMap K V) (p : ℕ) : NodeMap K V := m.filter fun node => node.place ≠ p

theorem nodes_erase (h : m.nodes = before ++ node :: ahead) :
    (m.erase node.place).nodes = before ++ ahead := by
  rw [erase, nodes_filter, h, List.filter_append, List.filter_cons_of_neg (by simp),
    List.filter_eq_self.mpr, List.filter_eq_self.mpr]
  · intro other hmem
    simpa using place_ne_of_ahead h other hmem
  · intro other hmem
    simpa using place_ne_of_before h other hmem

theorem notMem_places_filter {keep : Node K V → Bool} (hmem : node ∈ m.nodes)
    (hgone : keep node = false) : node.place ∉ (m.filter keep).places := by
  intro h
  obtain ⟨other, hother, heq⟩ := List.mem_map.mp h
  obtain ⟨hother, hkeep⟩ := List.mem_filter.mp hother
  obtain rfl := List.inj_on_of_nodup_map m.distinct hother hmem heq
  rw [hgone] at hkeep
  exact Bool.false_ne_true hkeep

/-! ### Assigning -/

/-- A value is assigned through an iterator. -/
def assign (m : NodeMap K V) (p : ℕ) (v : V) : NodeMap K V where
  nodes := m.nodes.map fun node => if node.place = p then { node with value := v } else node
  distinct := by
    rw [List.map_map]
    convert m.distinct using 2
    funext node
    rw [Function.comp_apply]
    split <;> rfl
  sorted := by
    rw [List.pairwise_map]
    refine m.sorted.imp ?_
    intro a b hab
    split <;> split <;> exact hab

theorem nodes_assign (m : NodeMap K V) (p : ℕ) (v : V) : (m.assign p v).nodes =
    m.nodes.map fun node => if node.place = p then { node with value := v } else node := rfl

theorem nodes_assign_of_nodes_eq (h : m.nodes = before ++ node :: ahead) (v : V) :
    (m.assign node.place v).nodes = before ++ { node with value := v } :: ahead := by
  have hkeep (ns : List (Node K V)) (hns : ∀ other ∈ ns, other.place ≠ node.place) :
      ns.map (fun other => if other.place = node.place then { other with value := v } else other) =
        ns := by
    refine (List.map_congr_left ?_).trans (List.map_id ns)
    intro other hmem
    exact if_neg (hns other hmem)
  rw [nodes_assign, h, List.map_append, List.map_cons, if_pos rfl, hkeep _ (place_ne_of_before h),
    hkeep _ (place_ne_of_ahead h)]

/-! ### Inserting -/

/-- A node put behind those of its key. -/
def insertNode (new : Node K V) (ns : List (Node K V)) : List (Node K V) :=
  ns.orderedInsert (fun a b => a.key < b.key) new

theorem perm_insertNode (new : Node K V) (ns : List (Node K V)) :
    (insertNode new ns).Perm (new :: ns) := List.perm_orderedInsert _ _ _

theorem insertNode_append (h : ∀ other ∈ before, other.key ≤ new.key) :
    insertNode new (before ++ ns) = before ++ insertNode new ns := by
  induction before with
  | nil => rfl
  | cons other before ih =>
    obtain ⟨hother, h⟩ := List.forall_mem_cons.mp h
    rw [List.cons_append, insertNode, List.orderedInsert, if_neg (not_lt.mpr hother),
      ← insertNode, ih h, List.cons_append]

theorem insertNode_of_lt (h : ∀ other ∈ ns, new.key < other.key) :
    insertNode new ns = new :: ns := by
  rcases ns with _ | ⟨other, ns⟩
  · rfl
  · rw [insertNode, List.orderedInsert, if_pos (h other List.mem_cons_self)]

theorem sorted_insertNode (h : ns.Pairwise fun a b => a.key ≤ b.key) :
    (insertNode new ns).Pairwise fun a b => a.key ≤ b.key := by
  induction ns with
  | nil => exact List.pairwise_singleton _ _
  | cons other ns ih =>
    obtain ⟨hother, hns⟩ := List.pairwise_cons.mp h
    rw [insertNode, List.orderedInsert]
    split
    · rename_i hlt
      refine List.pairwise_cons.mpr ⟨?_, h⟩
      intro node hnode
      rcases List.mem_cons.mp hnode with rfl | hnode
      · exact hlt.le
      · exact hlt.le.trans (hother node hnode)
    · rename_i hle
      refine List.pairwise_cons.mpr ⟨?_, ih hns⟩
      intro node hnode
      rcases List.mem_cons.mp ((perm_insertNode new ns).mem_iff.mp hnode) with rfl | hnode
      · exact not_lt.mp hle
      · exact hother node hnode

variable (a : Allocator)

/-- The node that is made for an entry. -/
def newNode (m : NodeMap K V) (k : K) (v : V) : Node K V :=
  { place := a.alloc m.places, key := k, value := v }

/-- An entry is inserted, at a place that is not in use. -/
def insert (m : NodeMap K V) (k : K) (v : V) : NodeMap K V where
  nodes := insertNode (m.newNode a k v) m.nodes
  distinct := by
    rw [((perm_insertNode _ _).map Node.place).nodup_iff, List.map_cons, List.nodup_cons]
    exact ⟨a.fresh _, m.distinct⟩
  sorted := sorted_insertNode m.sorted

theorem nodes_insert (m : NodeMap K V) (k : K) (v : V) :
    (m.insert a k v).nodes = insertNode (m.newNode a k v) m.nodes := rfl

/-- To insert at a walk: an entry of the key of the node that it stands at goes ahead. -/
theorem nodes_insert_of_nodes_eq (h : m.nodes = before ++ node :: ahead) (v : V) :
    (m.insert a node.key v).nodes =
      before ++ node :: insertNode (m.newNode a node.key v) ahead := by
  have hsorted := m.sorted
  rw [h, List.pairwise_append] at hsorted
  have hle : ∀ other ∈ before ++ [node], other.key ≤ (m.newNode a node.key v).key := by
    intro other hother
    rcases List.mem_append.mp hother with hother | hother
    · exact hsorted.2.2 other hother node List.mem_cons_self
    · obtain rfl := List.mem_singleton.mp hother
      exact le_rfl
  have hcons : ∀ ns : List (Node K V), before ++ node :: ns = (before ++ [node]) ++ ns := by simp
  rw [nodes_insert, h, hcons, insertNode_append hle, ← hcons]

theorem entries_insert (k : K) (v : V) :
    (m.insert a k v).entries = m.entries.orderedInsert (fun a b => a.1 < b.1) (k, v) := by
  rw [entries, nodes_insert, insertNode, List.map_orderedInsert _ fun a b => a.1 < b.1]
  · rfl
  · exact fun _ _ => Iff.rfl
  · exact fun _ _ => Iff.rfl

end NodeMap
