import Mathlib.Data.List.Nodup

/-!
# Lists of nodes

A `std::list` is a list of nodes, and an iterator is the address of a node: it
keeps designating the node while the node moves and while others come and go.
An operation on an iterator that designates no node is undefined.

As long as no address and no value occurs twice, the values change like a list
of keys.
-/

namespace MuduoHttp.Support

variable {α : Type*}

/-- A node with its address.  The address may be used again when the node is
erased. -/
structure Node (α : Type*) where
  address : ℕ
  value : α
  deriving DecidableEq, Repr

namespace NodeList

/-- `push_back`, which puts the value in a node at `address`. -/
def pushBack (l : List (Node α)) (address : ℕ) (value : α) : List (Node α) :=
  l ++ [⟨address, value⟩]

/-- `--end()`. -/
def back? (l : List (Node α)) : Option ℕ := l.getLast?.map (·.address)

def remove (l : List (Node α)) (position : ℕ) : List (Node α) :=
  l.filter fun node => node.address ≠ position

/-- `erase(position)`. -/
def erase (l : List (Node α)) (position : ℕ) : Option (List (Node α)) :=
  (l.find? fun node => node.address = position).map fun _ => remove l position

/-- `splice(end(), *this, position)`. -/
def spliceBack (l : List (Node α)) (position : ℕ) : Option (List (Node α)) :=
  (l.find? fun node => node.address = position).map fun node =>
    remove l position ++ [node]

/-- No address and no value occurs twice. -/
structure Distinct (l : List (Node α)) : Prop where
  addresses : (l.map (·.address)).Nodup
  values : (l.map (·.value)).Nodup

variable {l : List (Node α)} {node node' : Node α} {position : ℕ}

@[simp] theorem back?_append (l : List (Node α)) (node : Node α) :
    back? (l ++ [node]) = some node.address := by
  simp [back?]

theorem mem_remove :
    node ∈ remove l position ↔ node ∈ l ∧ node.address ≠ position := by
  simp [remove]

/-- Two nodes have one address exactly when they have one value. -/
theorem Distinct.address_eq_iff (h : Distinct l) (hnode : node ∈ l)
    (hnode' : node' ∈ l) :
    node.address = node'.address ↔ node.value = node'.value := by
  constructor
  · intro haddress
    exact congrArg Node.value
      (List.inj_on_of_nodup_map h.addresses hnode hnode' haddress)
  · intro hvalue
    exact congrArg Node.address
      (List.inj_on_of_nodup_map h.values hnode hnode' hvalue)

/-- What is left are the nodes of other values. -/
theorem Distinct.mem_remove_iff (h : Distinct l) (hnode : node ∈ l) :
    node' ∈ remove l node.address ↔
      node' ∈ l ∧ node'.value ≠ node.value := by
  rw [mem_remove]
  exact and_congr_right fun hmem => not_congr (h.address_eq_iff hmem hnode)

theorem Distinct.find? (h : Distinct l) (hnode : node ∈ l) :
    (l.find? fun other => other.address = node.address) = some node := by
  have hsome : (l.find? fun other => other.address = node.address).isSome := by
    rw [List.find?_isSome]
    exact ⟨node, hnode, by simp⟩
  obtain ⟨found, hfound⟩ := Option.isSome_iff_exists.mp hsome
  have haddress : found.address = node.address := by
    simpa using List.find?_some hfound
  rw [hfound, List.inj_on_of_nodup_map h.addresses
    (List.mem_of_find?_eq_some hfound) hnode haddress]

theorem Distinct.erase (h : Distinct l) (hnode : node ∈ l) :
    NodeList.erase l node.address = some (remove l node.address) := by
  rw [NodeList.erase, h.find? hnode, Option.map_some]

theorem Distinct.spliceBack (h : Distinct l) (hnode : node ∈ l) :
    NodeList.spliceBack l node.address =
      some (remove l node.address ++ [node]) := by
  rw [NodeList.spliceBack, h.find? hnode, Option.map_some]

theorem Distinct.remove (h : Distinct l) (position : ℕ) :
    Distinct (remove l position) where
  addresses := h.addresses.sublist (List.filter_sublist.map _)
  values := h.values.sublist (List.filter_sublist.map _)

/-- A node at the end, with a new address and a new value. -/
theorem Distinct.append (h : Distinct l)
    (haddress : node.address ∉ l.map (·.address))
    (hvalue : node.value ∉ l.map (·.value)) : Distinct (l ++ [node]) where
  addresses := by
    rw [List.map_append, List.map_singleton]
    exact List.nodup_append'.mpr ⟨h.addresses, List.nodup_singleton _,
      List.disjoint_singleton.mpr haddress⟩
  values := by
    rw [List.map_append, List.map_singleton]
    exact List.nodup_append'.mpr ⟨h.values, List.nodup_singleton _,
      List.disjoint_singleton.mpr hvalue⟩

/-- The node that is spliced is as new. -/
theorem Distinct.remove_append (h : Distinct l) (hnode : node ∈ l) :
    Distinct (NodeList.remove l node.address ++ [node]) := by
  apply (h.remove node.address).append
  · intro hmem
    obtain ⟨other, hother, haddress⟩ := List.mem_map.mp hmem
    exact (mem_remove.mp hother).2 haddress
  · intro hmem
    obtain ⟨other, hother, hvalue⟩ := List.mem_map.mp hmem
    exact ((h.mem_remove_iff hnode).mp hother).2 hvalue

/-- To erase a node is to erase its value. -/
theorem Distinct.map_remove [DecidableEq α] (h : Distinct l)
    (hnode : node ∈ l) :
    (NodeList.remove l node.address).map (·.value) =
      (l.map (·.value)).erase node.value := by
  have hsame : ∀ other ∈ l, decide (other.address ≠ node.address) =
      decide (other.value ≠ node.value) := by
    intro other hother
    rw [decide_eq_decide]
    exact not_congr (h.address_eq_iff hother hnode)
  rw [h.values.erase_eq_filter, List.filter_map, NodeList.remove,
    List.filter_congr hsame]
  congr 2
  funext other
  simp [bne, Bool.beq_eq_decide_eq]

end NodeList

end MuduoHttp.Support
