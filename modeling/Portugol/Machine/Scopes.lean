import Portugol.Value

/-! # Scopes

The variables in force lie in frames, one inside the other. The outermost frame holds the globals and is never
left. A name is looked up from the innermost frame outwards; a frame binds each name at most once. -/
namespace Portugol

/-- What a name is bound to: its value, and the type it was declared with, if it was declared with one. -/
structure Binding where
  value : Value
  declared : Option DataType
deriving DecidableEq

/-- The bindings of one frame, the oldest first. -/
abbrev Frame := List (String × Binding)

namespace Frame

def get? (f : Frame) (x : String) : Option Binding := f.lookup x

/-- Binds a name, in place of what it was bound to before. -/
def insert (x : String) (b : Binding) : Frame → Frame
  | [] => [(x, b)]
  | (y, c) :: rest => if y = x then (x, b) :: rest else (y, c) :: insert x b rest

@[simp] theorem get?_nil (x : String) : get? [] x = none := rfl

theorem get?_cons (y : String) (c : Binding) (f : Frame) (x : String) :
    get? ((y, c) :: f) x = if x = y then some c else f.get? x := by
  by_cases h : x = y
  · simp [get?, h]
  · simp [get?, List.lookup_cons, beq_false_of_ne h, h]

theorem get?_insert (f : Frame) (x : String) (b : Binding) (y : String) :
    (f.insert x b).get? y = if y = x then some b else f.get? y := by
  induction f with
  | nil => simp [insert, get?_cons]
  | cons entry f ih =>
    obtain ⟨z, c⟩ := entry
    by_cases hz : z = x
    · subst hz
      by_cases hy : y = z <;> simp [insert, get?_cons, hy]
    · by_cases hy : y = z
      · subst hy
        simp [insert, get?_cons, hz]
      · simp [insert, get?_cons, hz, hy, ih]

end Frame

/-- The frames in force, the innermost apart and the others from the inside out. -/
structure Scopes where
  current : Frame
  outer : List Frame
deriving DecidableEq

namespace Scopes

def empty : Scopes := ⟨[], []⟩

def frames (s : Scopes) : List Frame := s.current :: s.outer

def depth (s : Scopes) : Nat := s.frames.length

def push (s : Scopes) : Scopes := ⟨[], s.frames⟩

/-- Leaves the innermost frame, unless it holds the globals. -/
def pop (s : Scopes) : Scopes :=
  match s.outer with
  | [] => s
  | f :: rest => ⟨f, rest⟩

def isLocal (s : Scopes) (x : String) : Bool := (s.current.get? x).isSome

def declare (s : Scopes) (x : String) (b : Binding) : Scopes := { s with current := s.current.insert x b }

/-- The innermost binding of a name. -/
def get? (s : Scopes) (x : String) : Option Binding := s.frames.findSome? fun f => f.get? x

/-- Gives a new value to the first frame that binds a name. -/
def assignIn (x : String) (v : Value) : List Frame → List Frame
  | [] => []
  | f :: rest =>
    match f.get? x with
    | some b => f.insert x { b with value := v } :: rest
    | none => f :: assignIn x v rest

/-- Gives a new value to the innermost binding of a name; the type stays. -/
def assign (s : Scopes) (x : String) (v : Value) : Scopes :=
  match s.current.get? x with
  | some b => { s with current := s.current.insert x { b with value := v } }
  | none => { s with outer := assignIn x v s.outer }

@[simp] theorem pop_push (s : Scopes) : s.push.pop = s := rfl

@[simp] theorem depth_push (s : Scopes) : s.push.depth = s.depth + 1 := rfl

theorem frames_assign (s : Scopes) (x : String) (v : Value) : (s.assign x v).frames = assignIn x v s.frames := by
  simp only [assign, frames, assignIn]
  split <;> rfl

end Scopes
end Portugol
