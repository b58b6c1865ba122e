import Mathlib.Logic.Function.Basic
import Portugol.Proofs.Machine.Frames

/-! # A stack for each name

Instead of frames that each bind many names, one can keep a stack for each name: on it lie the bindings of this name,
each with the depth of the frame that it was made in, and the depths increase to the top. A declaration puts a binding
on top, or in place of the top one if that was made at the same depth; an assignment changes the value of the top one;
leaving a frame takes away what was made at its depth. Whatever is asked of the frames, in whatever order, the stacks
answer it in the same way (`Scopes.answers_eq`). -/
namespace Portugol

/-! ## Questions -/

/-- What variables that lie in frames offer, however they are kept. -/
class Scoping (σ : Type) where
  push : σ → σ
  pop : σ → σ
  declare : σ → String → Binding → σ
  assign : σ → String → Value → σ
  depth : σ → Nat
  isLocal : σ → String → Bool
  get? : σ → String → Option Binding

instance : Scoping Scopes where
  push := Scopes.push
  pop := Scopes.pop
  declare := Scopes.declare
  assign := Scopes.assign
  depth := Scopes.depth
  isLocal := Scopes.isLocal
  get? := Scopes.get?

namespace Scoping

inductive Request where
  | push
  | pop
  | declare (x : String) (b : Binding)
  | assign (x : String) (v : Value)
  | depth
  | isLocal (x : String)
  | get (x : String)

/-- What is seen of the variables: how many frames there are, whether the innermost binds a name, and what a name is
bound to. -/
inductive Answer where
  | depth (n : Nat)
  | isLocal (found : Bool)
  | binding (found : Option Binding)
deriving DecidableEq

variable {σ : Type} [Scoping σ]

def after (s : σ) : Request → σ
  | .push => push s
  | .pop => pop s
  | .declare x b => declare s x b
  | .assign x v => assign s x v
  | .depth | .isLocal _ | .get _ => s

/-- What is seen then: the depth after a frame is entered or left, the binding that is found after a declaration or an
assignment. -/
def answer (s : σ) : Request → Answer
  | .push | .pop | .depth => .depth (depth s)
  | .declare x _ | .assign x _ | .get x => .binding (get? s x)
  | .isLocal x => .isLocal (isLocal s x)

def answers (s : σ) : List Request → List Answer
  | [] => []
  | r :: rest => answer (after s r) r :: answers (after s r) rest

end Scoping

/-! ## Stacks -/

/-- How many frames were entered, and for each name its bindings, each with the depth it was made at, the latest
first. -/
structure NameStacks where
  depth : Nat
  stack : String → List (Nat × Binding)

namespace NameStacks

def start : NameStacks := ⟨1, fun _ => []⟩

def push (t : NameStacks) : NameStacks := { t with depth := t.depth + 1 }

def pop (t : NameStacks) : NameStacks :=
  if 1 < t.depth then ⟨t.depth - 1, fun x => (t.stack x).filter fun entry => entry.1 ≠ t.depth⟩ else t

/-- A binding that is made at a depth, on top of a stack. -/
def put (depth : Nat) (b : Binding) : List (Nat × Binding) → List (Nat × Binding)
  | [] => [(depth, b)]
  | top :: rest => if top.1 = depth then (depth, b) :: rest else (depth, b) :: top :: rest

def revalue (v : Value) : List (Nat × Binding) → List (Nat × Binding)
  | [] => []
  | (d, b) :: rest => (d, { b with value := v }) :: rest

def declare (t : NameStacks) (x : String) (b : Binding) : NameStacks :=
  { t with stack := Function.update t.stack x (put t.depth b (t.stack x)) }

def assign (t : NameStacks) (x : String) (v : Value) : NameStacks :=
  { t with stack := Function.update t.stack x (revalue v (t.stack x)) }

def isLocal (t : NameStacks) (x : String) : Bool := (t.stack x).head?.any fun top => top.1 = t.depth

def get? (t : NameStacks) (x : String) : Option Binding := (t.stack x).head?.map Prod.snd

instance : Scoping NameStacks where
  push := push
  pop := pop
  declare := declare
  assign := assign
  depth := depth
  isLocal := isLocal
  get? := get?

end NameStacks

/-! ## The stacks of frames -/

namespace Scopes

/-- The bindings of a name in some frames, each with the depth of its frame. -/
def stackIn (x : String) : List Frame → List (Nat × Binding)
  | [] => []
  | f :: rest =>
    match f.get? x with
    | some b => (rest.length + 1, b) :: stackIn x rest
    | none => stackIn x rest

def byName (s : Scopes) : NameStacks := ⟨s.depth, fun x => stackIn x s.frames⟩

variable {x y : String} {frames : List Frame}

theorem depth_of_mem_stackIn {entry : Nat × Binding} (h : entry ∈ stackIn x frames) : entry.1 ≤ frames.length := by
  induction frames with
  | nil => cases h
  | cons f rest ih =>
    have hrest (h : entry ∈ stackIn x rest) : entry.1 ≤ rest.length + 1 := Nat.le_succ_of_le (ih h)
    rw [stackIn] at h
    cases hf : f.get? x with
    | none =>
      rw [hf] at h
      exact hrest h
    | some b =>
      rw [hf] at h
      rcases List.mem_cons.1 h with rfl | h
      · exact Nat.le_refl _
      · exact hrest h

/-- The depths increase to the top. -/
theorem pairwise_stackIn (x : String) (frames : List Frame) :
    (stackIn x frames).Pairwise fun above below => below.1 < above.1 := by
  induction frames with
  | nil => exact .nil
  | cons f rest ih =>
    rw [stackIn]
    cases f.get? x with
    | none => exact ih
    | some b => exact .cons (fun entry hentry => Nat.lt_succ_of_le (depth_of_mem_stackIn hentry)) ih

theorem get?_head?_stackIn (x : String) (frames : List Frame) :
    (stackIn x frames).head?.map Prod.snd = frames.findSome? fun f => f.get? x := by
  induction frames with
  | nil => rfl
  | cons f rest ih =>
    rw [stackIn, List.findSome?_cons]
    cases f.get? x with
    | none => exact ih
    | some b => rfl

/-- What lies at the depth of the innermost frame is the binding of this frame. -/
theorem filter_stackIn (x : String) (f : Frame) (rest : List Frame) :
    (stackIn x (f :: rest)).filter (fun entry => entry.1 ≠ rest.length + 1) = stackIn x rest := by
  have hrest : (stackIn x rest).filter (fun entry => entry.1 ≠ rest.length + 1) = stackIn x rest := by
    refine List.filter_eq_self.2 fun entry hentry => ?_
    have hle := depth_of_mem_stackIn hentry
    exact decide_eq_true (by omega)
  rw [stackIn]
  cases f.get? x with
  | none => exact hrest
  | some b => rw [List.filter_cons_of_neg (by simp), hrest]

theorem stackIn_insert (b : Binding) (f : Frame) (rest : List Frame) :
    stackIn x (f.insert x b :: rest) = NameStacks.put (rest.length + 1) b (stackIn x (f :: rest)) := by
  rw [stackIn, stackIn, Frame.get?_insert, if_pos rfl]
  cases f.get? x with
  | some c => simp [NameStacks.put]
  | none =>
    -- Nothing further out is as deep as the new binding.
    cases hstack : stackIn x rest with
    | nil => rfl
    | cons top below =>
      have hle := depth_of_mem_stackIn (x := x) (hstack ▸ List.mem_cons_self)
      rw [NameStacks.put, if_neg (by omega)]

theorem stackIn_insert_of_ne (h : y ≠ x) (b : Binding) (f : Frame) (rest : List Frame) :
    stackIn y (f.insert x b :: rest) = stackIn y (f :: rest) := by
  rw [stackIn, stackIn, Frame.get?_insert, if_neg h]

theorem stackIn_assignIn (v : Value) (frames : List Frame) :
    stackIn x (assignIn x v frames) = NameStacks.revalue v (stackIn x frames) := by
  induction frames with
  | nil => rfl
  | cons f rest ih =>
    rw [assignIn, stackIn]
    cases hf : f.get? x with
    | some b => simp [stackIn, Frame.get?_insert, NameStacks.revalue]
    | none =>
      simp only [stackIn, hf]
      exact ih

theorem stackIn_assignIn_of_ne (h : y ≠ x) (v : Value) (frames : List Frame) :
    stackIn y (assignIn x v frames) = stackIn y frames := by
  induction frames with
  | nil => rfl
  | cons f rest ih =>
    rw [assignIn]
    cases f.get? x with
    | some b => exact stackIn_insert_of_ne h _ f rest
    | none => rw [stackIn, stackIn, ih, length_assignIn]

/-! ## Each request -/

variable (s : Scopes)

theorem byName_push : s.push.byName = s.byName.push := rfl

theorem byName_pop : s.pop.byName = s.byName.pop := by
  obtain ⟨f, _ | ⟨g, rest⟩⟩ := s
  · rfl
  · rw [NameStacks.pop, if_pos (show 1 < (byName ⟨f, g :: rest⟩).depth from Nat.succ_lt_succ (Nat.succ_pos _))]
    refine congrArg (NameStacks.mk _) (funext fun x => ?_)
    exact (filter_stackIn x f (g :: rest)).symm

theorem byName_declare (x : String) (b : Binding) : (s.declare x b).byName = s.byName.declare x b := by
  refine congrArg (NameStacks.mk _) (funext fun y => ?_)
  by_cases hy : y = x
  · subst hy
    rw [Function.update_self]
    exact stackIn_insert b s.current s.outer
  · rw [Function.update_of_ne hy]
    exact stackIn_insert_of_ne hy b s.current s.outer

theorem byName_assign (x : String) (v : Value) : (s.assign x v).byName = s.byName.assign x v := by
  rw [byName, depth_assign, frames_assign]
  refine congrArg (NameStacks.mk _) (funext fun y => ?_)
  by_cases hy : y = x
  · subst hy
    rw [Function.update_self]
    exact stackIn_assignIn v s.frames
  · rw [Function.update_of_ne hy]
    exact stackIn_assignIn_of_ne hy v s.frames

/-- A name is bound in the innermost frame if its top binding is as deep as this frame. -/
theorem isLocal_byName (x : String) : s.byName.isLocal x = s.isLocal x := by
  obtain ⟨f, rest⟩ := s
  rw [NameStacks.isLocal, isLocal]
  simp only [byName, depth, frames, stackIn, List.length_cons]
  cases f.get? x with
  | some b => simp
  | none =>
    cases hstack : stackIn x rest with
    | nil => rfl
    | cons top below =>
      have hle := depth_of_mem_stackIn (x := x) (hstack ▸ List.mem_cons_self)
      exact decide_eq_false (by omega)

theorem get?_byName (x : String) : s.byName.get? x = s.get? x := get?_head?_stackIn x s.frames

theorem after_byName (r : Scoping.Request) : Scoping.after s.byName r = (Scoping.after s r).byName := by
  cases r with
  | push => exact (byName_push s).symm
  | pop => exact (byName_pop s).symm
  | declare x b => exact (byName_declare s x b).symm
  | assign x v => exact (byName_assign s x v).symm
  | depth | isLocal | get => rfl

theorem answer_byName (r : Scoping.Request) : Scoping.answer s.byName r = Scoping.answer s r := by
  cases r with
  | push | pop | depth => rfl
  | isLocal x => exact congrArg Scoping.Answer.isLocal (isLocal_byName s x)
  | declare x | assign x | get x => exact congrArg Scoping.Answer.binding (get?_byName s x)

theorem answers_byName (requests : List Scoping.Request) :
    Scoping.answers s.byName requests = Scoping.answers s requests := by
  induction requests generalizing s with
  | nil => rfl
  | cons r rest ih => rw [Scoping.answers, Scoping.answers, after_byName, answer_byName, ih]

theorem foldl_after_byName (requests : List Scoping.Request) :
    requests.foldl Scoping.after s.byName = (requests.foldl Scoping.after s).byName := by
  induction requests generalizing s with
  | nil => rfl
  | cons r rest ih => rw [List.foldl_cons, List.foldl_cons, after_byName, ih]

/-- From the empty scopes on, frames and stacks answer every sequence of requests alike, and the depths on every stack
increase to its top. A declaration or an assignment does not touch what any frame binds other names to. -/
theorem answers_eq :
    (∀ requests, Scoping.answers empty requests = Scoping.answers NameStacks.start requests) ∧
    (∀ (requests : List Scoping.Request) (x : String),
      ((requests.foldl Scoping.after NameStacks.start).stack x).Pairwise fun above below => below.1 < above.1) ∧
    ∀ (s : Scopes) (x y : String), y ≠ x → ∀ i, (∀ b, (s.declare x b).binding? i y = s.binding? i y) ∧
      ∀ v, (s.assign x v).binding? i y = s.binding? i y := by
  have hstart : empty.byName = NameStacks.start := rfl
  refine ⟨fun requests => ?_, fun requests x => ?_, fun s x y hy i => ⟨fun b => ?_, fun v => ?_⟩⟩
  · rw [← hstart, answers_byName]
  · rw [← hstart, foldl_after_byName]
    exact pairwise_stackIn x _
  · rw [binding?_declare, if_neg fun h => hy h.2]
  · exact binding?_assign_of_ne v hy

/-- A global is hidden two frames further in, and found again when this frame is left; the last frame is not left. -/
theorem answers_eq_hiding :
    let bound (n : Int64) : Scoping.Answer := .binding (some ⟨.integer n, none⟩)
    Scoping.answers empty [.declare "x" ⟨.integer 1, none⟩, .push, .push, .declare "x" ⟨.integer 2, none⟩,
      .assign "x" (.integer 3), .isLocal "x", .pop, .isLocal "x", .assign "x" (.integer 4), .pop, .pop, .get "x",
      .get "y"] =
    [bound 1, .depth 2, .depth 3, bound 2, bound 3, .isLocal true, .depth 2, .isLocal false, bound 4, .depth 1,
      .depth 1, bound 4, .binding none] ∧
    "y" ≠ "x" ∧ ((empty.declare "y" ⟨.boolean true, none⟩).declare "x" ⟨.integer 1, none⟩).binding? 0 "y" =
      some ⟨.boolean true, none⟩ := by
  intro bound
  have hy : "y" ≠ "x" := by decide
  refine ⟨?_, hy, ?_⟩
  · rw [answers_eq.1]
    rfl
  · rw [(answers_eq.2.2 _ "x" "y" hy 0).1]
    rfl

end Scopes
end Portugol
