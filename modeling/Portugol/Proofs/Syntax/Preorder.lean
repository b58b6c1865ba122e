import Mathlib.Data.List.Nodup
import Portugol.Proofs.Syntax.Drawing

/-! # Trees in preorder

The nodes of a tree are listed in preorder, each with the way that leads to it from the root, so that no two of them are
confused (`nodup_nodesFrom`). A node is numbered by its place in this list, and its parent is the node at the end of its
way less one step, which has a smaller number. The labels together with the numbers of the parents tell the tree
(`childEntries_inj`): the nodes below a node end where a node comes whose parent is an earlier one. -/
namespace Portugol.Tree

mutual

/-- The nodes of a tree in preorder, each with the way to it and its label, if the root is at the end of a way. The
steps of a way are the numbers of the children that it goes to. -/
def nodesFrom (way : List Nat) : Tree → List (List Nat × String)
  | .node label children => (way, label) :: childNodes way 0 children

/-- The nodes of children, the first of which is child number `i` of the node at the end of a way. -/
def childNodes (way : List Nat) (i : Nat) : List Tree → List (List Nat × String)
  | [] => []
  | t :: rest => nodesFrom (way ++ [i]) t ++ childNodes way (i + 1) rest

end

def nodes (t : Tree) : List (List Nat × String) := t.nodesFrom []

def number (t : Tree) (way : List Nat) : Nat := (t.nodes.map Prod.fst).idxOf way

/-- The number of the parent of the node at the end of a way; the root has none. -/
def parent? (t : Tree) (way : List Nat) : Option Nat := if way = [] then none else some (t.number way.dropLast)

mutual

/-- The nodes of a tree in preorder, each with its label and the number of its parent, if the root has number `n`. -/
def entries (parent n : Nat) : Tree → List (Nat × String)
  | .node label children => (parent, label) :: childEntries n (n + 1) children

def childEntries (parent n : Nat) : List Tree → List (Nat × String)
  | [] => []
  | t :: rest => entries parent n t ++ childEntries parent (n + t.size) rest

end

/-! ## Ways -/

mutual

theorem prefix_of_mem_nodesFrom {way : List Nat} : ∀ t : Tree, ∀ place ∈ nodesFrom way t, way <+: place.1
  | .node label children, place, h => by
    rw [nodesFrom, List.mem_cons] at h
    rcases h with rfl | h
    · exact List.prefix_rfl
    · obtain ⟨j, -, hj⟩ := prefix_of_mem_childNodes children place h
      exact (List.prefix_append _ _).trans hj

theorem prefix_of_mem_childNodes {way : List Nat} {i : Nat} :
    ∀ ts : List Tree, ∀ place ∈ childNodes way i ts, ∃ j, i ≤ j ∧ way ++ [j] <+: place.1
  | t :: rest, place, h => by
    rw [childNodes, List.mem_append] at h
    rcases h with h | h
    · exact ⟨i, Nat.le_refl i, prefix_of_mem_nodesFrom t place h⟩
    · obtain ⟨j, hj, hprefix⟩ := prefix_of_mem_childNodes rest place h
      exact ⟨j, Nat.le_of_succ_le hj, hprefix⟩

end

/-- Of two children of one node, no way leads through both. -/
theorem step_unique {way way' : List Nat} {i j : Nat} (hi : way ++ [i] <+: way') (hj : way ++ [j] <+: way') :
    i = j := by
  have hprefix := List.prefix_of_prefix_length_le hi hj (by simp)
  simpa using hprefix.eq_of_length (by simp)

mutual

theorem nodup_nodesFrom (way : List Nat) : ∀ t : Tree, ((nodesFrom way t).map Prod.fst).Nodup
  | .node label children => by
    rw [nodesFrom, List.map_cons, List.nodup_cons]
    refine ⟨fun h => ?_, nodup_childNodes way 0 children⟩
    obtain ⟨place, hplace, rfl⟩ := List.mem_map.1 h
    obtain ⟨j, -, hj⟩ := prefix_of_mem_childNodes children place hplace
    have hlength := hj.length_le
    rw [List.length_append, List.length_singleton] at hlength
    exact Nat.not_succ_le_self _ hlength

theorem nodup_childNodes (way : List Nat) (i : Nat) : ∀ ts : List Tree, ((childNodes way i ts).map Prod.fst).Nodup
  | [] => List.nodup_nil
  | t :: rest => by
    rw [childNodes, List.map_append, List.nodup_append]
    refine ⟨nodup_nodesFrom _ t, nodup_childNodes way (i + 1) rest, ?_⟩
    rintro _ h _ h' rfl
    obtain ⟨place, hplace, rfl⟩ := List.mem_map.1 h
    obtain ⟨place', hplace', heq⟩ := List.mem_map.1 h'
    have hi := prefix_of_mem_nodesFrom t place hplace
    obtain ⟨j, hj, hprefix⟩ := prefix_of_mem_childNodes rest place' hplace'
    rw [heq] at hprefix
    exact absurd (step_unique hi hprefix) (Nat.ne_of_lt hj)

end

/-- A node is numbered by its place. -/
theorem number_eq {t : Tree} {way : List Nat} {label : String} {before behind : List (List Nat × String)}
    (h : t.nodes = before ++ (way, label) :: behind) : t.number way = before.length := by
  have hnodup := nodup_nodesFrom [] t
  change (t.nodes.map Prod.fst).Nodup at hnodup
  rw [h, List.map_append, List.map_cons, List.nodup_append] at hnodup
  have hmem : way ∉ before.map Prod.fst := fun hmem => hnodup.2.2 way hmem way (.head _) rfl
  rw [number, h, List.map_append, List.map_cons, List.idxOf_append_of_notMem hmem, List.idxOf_cons_self,
    List.length_map, Nat.add_zero]

/-! ## Parents -/

mutual

theorem length_nodesFrom (way : List Nat) : ∀ t : Tree, (nodesFrom way t).length = t.size
  | .node label children => by
    rw [nodesFrom, size, List.length_cons, length_childNodes, Nat.add_comm]

theorem length_childNodes (way : List Nat) (i : Nat) : ∀ ts : List Tree, (childNodes way i ts).length = sizes ts
  | [] => rfl
  | t :: rest => by
    rw [childNodes, sizes, List.length_append, length_nodesFrom, length_childNodes]

end

mutual

theorem length_entries (parent n : Nat) : ∀ t : Tree, (t.entries parent n).length = t.size
  | .node label children => by
    rw [entries, size, List.length_cons, length_childEntries, Nat.add_comm]

theorem length_childEntries (parent n : Nat) : ∀ ts : List Tree, (childEntries parent n ts).length = sizes ts
  | [] => rfl
  | t :: rest => by
    rw [childEntries, sizes, List.length_append, length_entries, length_childEntries]

end

section Subtrees

variable {t : Tree}

mutual

/-- The entries of a part of a tree are its nodes with the numbers that their parents have in the whole tree. -/
theorem entries_eq : ∀ (s : Tree) {way : List Nat} {before behind : List (List Nat × String)},
    t.nodes = before ++ s.nodesFrom way ++ behind →
      s.entries (t.number way.dropLast) before.length =
        (s.nodesFrom way).map fun node => (t.number node.1.dropLast, node.2)
  | .node label children, way, before, behind, h => by
    rw [nodesFrom] at h
    have hroot : t.nodes = before ++ (way, label) :: (childNodes way 0 children ++ behind) := by
      rw [h, List.append_assoc, List.cons_append]
    have hnumber := number_eq hroot
    have hbelow : t.nodes = (before ++ [(way, label)]) ++ childNodes way 0 children ++ behind := by
      rw [h, List.append_cons, List.append_assoc]
    have hchildren := childEntries_eq children hbelow
    rw [List.length_append, List.length_singleton, hnumber] at hchildren
    rw [entries, nodesFrom, List.map_cons, hchildren]

theorem childEntries_eq : ∀ (ts : List Tree) {way : List Nat} {i : Nat} {before behind : List (List Nat × String)},
    t.nodes = before ++ childNodes way i ts ++ behind →
      childEntries (t.number way) before.length ts =
        (childNodes way i ts).map fun node => (t.number node.1.dropLast, node.2)
  | [], _, _, _, _, _ => rfl
  | s :: rest, way, i, before, behind, h => by
    rw [childNodes] at h
    have hlater : t.nodes = (before ++ s.nodesFrom (way ++ [i])) ++ childNodes way (i + 1) rest ++ behind := by
      rw [h, ← List.append_assoc before]
    have hfirst : t.nodes = before ++ s.nodesFrom (way ++ [i]) ++ (childNodes way (i + 1) rest ++ behind) := by
      rw [hlater, List.append_assoc]
    have hentries := entries_eq s hfirst
    have hchildren := childEntries_eq rest hlater
    rw [List.dropLast_concat] at hentries
    rw [List.length_append, length_nodesFrom] at hchildren
    rw [childEntries, childNodes, List.map_append, hentries, hchildren]

end

end Subtrees

mutual

/-- Every parent has a smaller number than its child. -/
theorem entries_lt {parent n : Nat} (h : parent < n) :
    ∀ t : Tree, ∀ entry ∈ (t.entries parent n).zipIdx n, entry.1.1 < entry.2
  | .node label children => by
    rw [entries, List.zipIdx_cons, List.forall_mem_cons]
    exact ⟨h, childEntries_lt (Nat.lt_succ_self n) children⟩

theorem childEntries_lt {parent n : Nat} (h : parent < n) :
    ∀ ts : List Tree, ∀ entry ∈ (childEntries parent n ts).zipIdx n, entry.1.1 < entry.2
  | [] => nofun
  | t :: rest => by
    rw [childEntries, List.zipIdx_append, List.forall_mem_append, length_entries]
    exact ⟨entries_lt h t, childEntries_lt (Nat.lt_add_right _ h) rest⟩

end

/-! ## Trees from entries -/

/-- What comes behind a tree has an earlier parent than what is in it. -/
theorem head?_childEntries {parent n bound : Nat} (h : parent < bound) {rest : List (Nat × String)}
    (hrest : ∀ entry ∈ rest.head?, entry.1 < bound) :
    ∀ ts : List Tree, ∀ entry ∈ (childEntries parent n ts ++ rest).head?, entry.1 < bound
  | [] => hrest
  | .node label children :: ts => by
    rintro entry ⟨⟩
    exact h

mutual

/-- A tree is known from its entries, which end where one with an earlier parent comes. -/
theorem entries_inj {parent n : Nat} {rest rest' : List (Nat × String)}
    (hrest : ∀ entry ∈ rest.head?, entry.1 < n) (hrest' : ∀ entry ∈ rest'.head?, entry.1 < n) :
    ∀ t u : Tree, t.entries parent n ++ rest = u.entries parent n ++ rest' → t = u ∧ rest = rest'
  | .node label ts, .node label' us, h => by
    rw [entries, entries, List.cons_append, List.cons_append, List.cons.injEq, Prod.mk.injEq] at h
    obtain ⟨⟨-, rfl⟩, h⟩ := h
    obtain ⟨rfl, hsame⟩ := childEntries_inj (Nat.lt_succ_self n) hrest hrest' ts us h
    exact ⟨rfl, hsame⟩

theorem childEntries_inj {parent n : Nat} (hparent : parent < n) {rest rest' : List (Nat × String)}
    (hrest : ∀ entry ∈ rest.head?, entry.1 < parent) (hrest' : ∀ entry ∈ rest'.head?, entry.1 < parent) :
    ∀ ts us : List Tree, childEntries parent n ts ++ rest = childEntries parent n us ++ rest' → ts = us ∧ rest = rest'
  | [], [], h => ⟨rfl, h⟩
  | [], .node label children :: us, h => by
    have hhead : (parent, label) ∈ rest.head? := congrArg List.head? h
    exact absurd (hrest _ hhead) (Nat.lt_irrefl parent)
  | .node label children :: ts, [], h => by
    have hhead : (parent, label) ∈ rest'.head? := congrArg List.head? h.symm
    exact absurd (hrest' _ hhead) (Nat.lt_irrefl parent)
  | t :: ts, u :: us, h => by
    rw [childEntries, childEntries, List.append_assoc, List.append_assoc] at h
    have hbehind {rest : List (Nat × String)} (hrest : ∀ entry ∈ rest.head?, entry.1 < parent) (k : Nat) :=
      head?_childEntries (n := k) hparent fun entry hentry => Nat.lt_trans (hrest entry hentry) hparent
    obtain ⟨rfl, hsame⟩ := entries_inj (hbehind hrest _ _) (hbehind hrest' _ _) t u h
    obtain ⟨rfl, hsame'⟩ := childEntries_inj (Nat.lt_add_right _ hparent) hrest hrest' ts us hsame
    exact ⟨rfl, hsame'⟩

end

end Portugol.Tree
