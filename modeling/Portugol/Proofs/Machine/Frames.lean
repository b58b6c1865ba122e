import Portugol.Machine.Scopes

/-! # Bindings by frame

The frames are numbered from the inside out, and `binding?` tells what a frame binds a name to, whether or not a
frame further inside binds the same name. Each operation on scopes is described by what it does to these bindings:
a declaration changes one of frame zero, an assignment changes the first one of its name. -/
namespace Portugol.Scopes

/-- What the `i`-th of some frames binds a name to. -/
def bindingIn (frames : List Frame) (i : Nat) (x : String) : Option Binding :=
  frames[i]?.bind fun f => f.get? x

def binding? (s : Scopes) (i : Nat) (x : String) : Option Binding := bindingIn s.frames i x

variable (s : Scopes) (i : Nat) (x y : String)

@[simp] theorem binding?_zero : s.binding? 0 x = s.current.get? x := rfl

@[simp] theorem binding?_push_zero : s.push.binding? 0 x = none := rfl

@[simp] theorem binding?_push_succ : s.push.binding? (i + 1) x = s.binding? i x := rfl

@[simp] theorem binding?_empty : empty.binding? i x = none := by
  cases i with
  | zero => rfl
  | succ i => rfl

theorem isLocal_eq_false_iff : s.isLocal x = false ↔ s.binding? 0 x = none := by
  simp [isLocal]

theorem depth_eq_succ : s.depth = s.outer.length + 1 := rfl

/-- Leaving a frame that is not the outermost. -/
theorem binding?_pop (h : 1 < s.depth) : s.pop.binding? i x = s.binding? (i + 1) x := by
  obtain ⟨current, _ | ⟨f, rest⟩⟩ := s
  · exact absurd h (Nat.lt_irrefl 1)
  · rfl

theorem depth_pop (h : 1 < s.depth) : s.pop.depth = s.depth - 1 := by
  obtain ⟨current, _ | ⟨f, rest⟩⟩ := s
  · exact absurd h (Nat.lt_irrefl 1)
  · rfl

@[simp] theorem depth_declare (b : Binding) : (s.declare x b).depth = s.depth := rfl

theorem binding?_declare (b : Binding) :
    (s.declare y b).binding? i x = if i = 0 ∧ x = y then some b else s.binding? i x := by
  cases i with
  | zero => simp [declare, Frame.get?_insert]
  | succ i => simp [declare, binding?, bindingIn, frames]

section
variable {x y i} {frames : List Frame} (v : Value)

theorem length_assignIn (x : String) (frames : List Frame) : (assignIn x v frames).length = frames.length := by
  induction frames with
  | nil => rfl
  | cons f rest ih =>
    rw [assignIn]
    split
    · rfl
    · simp [ih]

theorem bindingIn_assignIn_of_ne (h : y ≠ x) : bindingIn (assignIn x v frames) i y = bindingIn frames i y := by
  induction frames generalizing i with
  | nil => rfl
  | cons f rest ih =>
    rw [assignIn]
    cases hf : f.get? x with
    | some b => cases i <;> simp [bindingIn, Frame.get?_insert, h]
    | none =>
      cases i with
      | zero => rfl
      | succ i => exact ih

theorem bindingIn_assignIn_first (h : ∀ j < i, bindingIn frames j x = none) :
    bindingIn (assignIn x v frames) i x = (bindingIn frames i x).map fun b => { b with value := v } := by
  induction frames generalizing i with
  | nil => rfl
  | cons f rest ih =>
    rw [assignIn]
    cases i with
    | zero => cases hf : f.get? x <;> simp [bindingIn, Frame.get?_insert, hf]
    | succ i =>
      have hf : f.get? x = none := h 0 (Nat.succ_pos i)
      rw [hf]
      exact ih fun j hj => h (j + 1) (Nat.succ_lt_succ hj)

theorem bindingIn_assignIn_hidden {j : Nat} (hj : j < i) (hb : bindingIn frames j x ≠ none) :
    bindingIn (assignIn x v frames) i x = bindingIn frames i x := by
  induction frames generalizing i j with
  | nil => rfl
  | cons f rest ih =>
    obtain ⟨i, rfl⟩ : ∃ k, i = k + 1 := ⟨i - 1, by omega⟩
    rw [assignIn]
    cases hf : f.get? x with
    | some b => rfl
    | none =>
      cases j with
      | zero => exact absurd hf hb
      | succ j => exact ih (Nat.lt_of_succ_lt_succ hj) hb

theorem findSome?_eq_of_first {b : Binding} (hb : bindingIn frames i x = some b)
    (h : ∀ j < i, bindingIn frames j x = none) : (frames.findSome? fun f => f.get? x) = some b := by
  induction frames generalizing i with
  | nil => exact nomatch hb
  | cons f rest ih =>
    rw [List.findSome?_cons]
    cases i with
    | zero => rw [show f.get? x = some b from hb]
    | succ i =>
      rw [show f.get? x = none from h 0 (Nat.succ_pos i)]
      exact ih hb fun j hj => h (j + 1) (Nat.succ_lt_succ hj)

theorem findSome?_assignIn {b : Binding} (h : (frames.findSome? fun f => f.get? x) = some b) :
    ((assignIn x v frames).findSome? fun f => f.get? x) = some { b with value := v } := by
  induction frames with
  | nil => exact nomatch h
  | cons f rest ih =>
    rw [List.findSome?_cons] at h
    rw [assignIn]
    cases hf : f.get? x with
    | some c =>
      rw [hf] at h
      simp [Frame.get?_insert, Option.some.inj h]
    | none =>
      rw [hf] at h
      simp only [List.findSome?_cons, hf]
      exact ih h

end

variable {s i x y}

@[simp] theorem depth_assign (v : Value) : (s.assign x v).depth = s.depth := by
  rw [depth, frames_assign, length_assignIn, depth]

theorem binding?_assign_of_ne (v : Value) (h : y ≠ x) : (s.assign x v).binding? i y = s.binding? i y := by
  rw [binding?, frames_assign]
  exact bindingIn_assignIn_of_ne v h

/-- The first binding of the name gets the value and keeps its type. -/
theorem binding?_assign_first (v : Value) (h : ∀ j < i, s.binding? j x = none) :
    (s.assign x v).binding? i x = (s.binding? i x).map fun b => { b with value := v } := by
  rw [binding?, frames_assign]
  exact bindingIn_assignIn_first v h

/-- A binding that another one hides is not touched. -/
theorem binding?_assign_hidden (v : Value) {j : Nat} (hj : j < i) (hb : s.binding? j x ≠ none) :
    (s.assign x v).binding? i x = s.binding? i x := by
  rw [binding?, frames_assign]
  exact bindingIn_assignIn_hidden v hj hb

/-- Only the first binding of the name is touched. -/
theorem binding?_assign (v : Value) : (s.assign x v).binding? i y =
    if y = x ∧ ∀ j < i, s.binding? j x = none then (s.binding? i y).map fun b => { b with value := v }
    else s.binding? i y := by
  split
  · next h =>
    obtain ⟨rfl, hfirst⟩ := h
    exact binding?_assign_first v hfirst
  · next h =>
    by_cases hy : y = x
    · subst hy
      obtain ⟨j, hj, hb⟩ : ∃ j, j < i ∧ s.binding? j y ≠ none := by simpa using h
      exact binding?_assign_hidden v hj hb
    · exact binding?_assign_of_ne v hy

theorem declared_assign (v : Value) :
    ((s.assign x v).binding? i y).map Binding.declared = (s.binding? i y).map Binding.declared := by
  rw [binding?_assign]
  split
  · rw [Option.map_map]
    rfl
  · rfl

/-- The binding that a name has is the first one that some frame holds. -/
theorem get?_eq_of_first {b : Binding} (hb : s.binding? i x = some b) (h : ∀ j < i, s.binding? j x = none) :
    s.get? x = some b :=
  findSome?_eq_of_first hb h

/-- A value that is assigned is found under the name. -/
theorem get?_assign {b : Binding} (v : Value) (h : s.get? x = some b) :
    (s.assign x v).get? x = some { b with value := v } := by
  rw [get?, frames_assign]
  exact findSome?_assignIn v h

theorem binding?_eq_none_of_get? (h : s.get? x = none) : s.binding? i x = none := by
  rw [get?, List.findSome?_eq_none_iff] at h
  rw [binding?, bindingIn]
  cases hf : s.frames[i]? with
  | none => rfl
  | some f => exact h f (List.mem_of_getElem? hf)

/-- What a name is bound to is told by what each frame binds it to. -/
theorem get?_congr {t : Scopes} (hdepth : t.depth = s.depth) (h : ∀ i, t.binding? i x = s.binding? i x) :
    t.get? x = s.get? x := by
  have hbound : t.frames.map (Frame.get? · x) = s.frames.map (Frame.get? · x) := by
    refine List.ext_getElem ?_ fun i hi hi' => ?_
    · rwa [List.length_map, List.length_map]
    · rw [List.length_map] at hi hi'
      have hsame := h i
      rw [binding?, binding?, bindingIn, bindingIn, List.getElem?_eq_getElem hi, List.getElem?_eq_getElem hi'] at hsame
      simpa using hsame
  have hmap (u : Scopes) : u.get? x = (u.frames.map (Frame.get? · x)).findSome? id := by
    rw [List.findSome?_map]
    rfl
  rw [hmap, hmap, hbound]

/-- A name that is declared is found as it was declared, and the others as before. -/
theorem get?_declare (b : Binding) : (s.declare x b).get? y = if y = x then some b else s.get? y := by
  split
  · next hy =>
    subst hy
    have hfirst : (s.declare y b).binding? 0 y = some b := by rw [binding?_declare, if_pos ⟨rfl, rfl⟩]
    exact get?_eq_of_first hfirst nofun
  · next hy => exact get?_congr rfl fun i => by rw [binding?_declare, if_neg fun h => hy h.2]

end Portugol.Scopes
