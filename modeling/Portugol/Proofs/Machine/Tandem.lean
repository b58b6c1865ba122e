import Portugol.Proofs.Machine.Courses
import Portugol.Proofs.Syntax.Parts

/-! # Two runs of the same statements

The same statements are run from two machines. The runs stay together as long as every statement without blocks keeps
the machines together, and entering and leaving a frame does; what being together means may depend on how many frames
were entered since the runs set out. Where a statement sets the two runs apart, what is said of them from there on has
to stand whatever the first run does next, as long as it only reads on and writes on (`Tandem`). Then the two runs end
in the same way, or they went apart (`together_exec`, and `together_execAll` for statements in a row). -/
namespace Portugol

namespace Outcome

def andThen (r : Outcome) (next : Machine → Outcome) : Outcome :=
  match r with
  | .finished m => next m
  | .failed e m => .failed e m
  | .unfinished => .unfinished

/-- Two runs that end in the same way with machines that are together, or runs that went apart. -/
inductive Together (together : Machine → Machine → Prop) (apart : Outcome → Outcome → Prop) :
    Outcome → Outcome → Prop where
  | finished {m m'} (h : together m m') : Together together apart (.finished m) (.finished m')
  | failed {e m m'} (h : together m m') : Together together apart (.failed e m) (.failed e m')
  | unfinished : Together together apart .unfinished .unfinished
  | apart {r r'} (h : apart r r') : Together together apart r r'

/-- Two runs that end in the same way with machines that are related. -/
abbrev Alike (related : Machine → Machine → Prop) : Outcome → Outcome → Prop := Together related fun _ _ => False

variable {together together' : Machine → Machine → Prop} {apart : Outcome → Outcome → Prop} {r r' : Outcome}

theorem Together.mono (h : Together together apart r r') (hle : ∀ m m', together m m' → together' m m') :
    Together together' apart r r' := by
  cases h with
  | finished h => exact .finished (hle _ _ h)
  | failed h => exact .failed (hle _ _ h)
  | unfinished => exact .unfinished
  | apart h => exact .apart h

theorem Alike.unfinished_iff (h : Alike together r r') : r = .unfinished ↔ r' = .unfinished := by
  cases h with
  | finished | failed => simp
  | unfinished => rfl
  | apart h => exact h.elim

/-- If what one run leaves is given by what the other does, so is how it ends. -/
theorem Alike.eq_map {f : Machine → Machine} (h : Alike (fun m m' => m' = f m) r r') : r' = r.map f := by
  cases h with
  | finished h | failed h => rw [h, Outcome.map]
  | unfinished => rfl
  | apart h => exact h.elim

theorem Together.andThen (h : Together together apart r r') {next next' : Machine → Outcome}
    (hapart : apart r r' → apart (r.andThen next) (r'.andThen next'))
    (hnext : ∀ m m', together m m' → Together together apart (next m) (next' m')) :
    Together together apart (r.andThen next) (r'.andThen next') := by
  cases h with
  | finished h => exact hnext _ _ h
  | failed h => exact .failed h
  | unfinished => exact .unfinished
  | apart h => exact .apart (hapart h)

theorem Together.map (h : Together together apart r r') {f : Machine → Machine}
    (hapart : apart r r' → apart (r.map f) (r'.map f)) (hf : ∀ m m', together m m' → together' (f m) (f m')) :
    Together together' apart (r.map f) (r'.map f) := by
  cases h with
  | finished h => exact .finished (hf _ _ h)
  | failed h => exact .failed (hf _ _ h)
  | unfinished => exact .unfinished
  | apart h => exact .apart (hapart h)

end Outcome

theorem Statement.output_eq_andThen (o : Options) (exprs : List Expr) (m : Machine) : output o exprs m =
    match values m.scopes exprs with
    | .error e => .failed e m
    | .ok vs => (m.print (vs.map Value.render ++ ["\n"])).andThen fun m =>
      .finished (m.report o ("escrita: " ++ toString vs.length ++ " valor(es)")) := by
  rw [output]
  cases values m.scopes exprs with
  | error e => rfl
  | ok vs =>
    simp only
    cases m.print (vs.map Value.render ++ ["\n"]) <;> rfl

/-- What keeps two runs of the same statements together, so many frames further in than where they set out, and what is
said of them once they went apart. -/
structure Tandem (o o' : Options) (among : Nat → Statement → Prop) (together : Nat → Machine → Machine → Prop)
    (apart : Outcome → Outcome → Prop) : Prop where
  among_succ {n s} (hs : among n s) : among (n + 1) s
  plain {n s m m'} (hplain : s.IsPlain) (hs : among n s) (h : together n m m') (fuel : Nat) :
    Outcome.Together (together n) apart (s.exec o fuel m) (s.exec o' fuel m')
  test {n s condition m m'} (hs : among n s) (hcondition : condition ∈ s.exprs) (h : together n m m') :
    condition.test m'.scopes = condition.test m.scopes
  report {n m m'} (h : together n m m') (step : String) : together n (m.report o step) (m'.report o' step)
  push {n m m'} (h : together n m m') : together (n + 1) m.push m'.push
  pop {n m m'} (h : together (n + 1) m m') : together n m.pop m'.pop
  leaving {r r'} (h : apart r r') : apart (r.map Machine.pop) (r'.map Machine.pop)
  andThen {r r'} (h : apart r r') {next next'} (hnext : ∀ m m₁, (next m).machine? = some m₁ → m.Onward m₁) :
    apart (r.andThen next) (r'.andThen next')

namespace Tandem

variable {o o' : Options} {among : Nat → Statement → Prop} {together : Nat → Machine → Machine → Prop}
  {apart : Outcome → Outcome → Prop}

theorem together_loop (ht : Tandem o o' among together apart) {n : Nat} {test : Machine → Except RuntimeError Bool}
    {body body' : Machine → Outcome} (htest : ∀ m m', together n m m' → test m' = test m)
    (hbody : ∀ m m', together n m m' → Outcome.Together (together n) apart (body m) (body' m'))
    (honward : ∀ m m₁, (body m).machine? = some m₁ → m.Onward m₁) (fuel : Nat) {m m' : Machine}
    (h : together n m m') :
    Outcome.Together (together n) apart (Statement.loop test body fuel m) (Statement.loop test body' fuel m') := by
  induction fuel generalizing m m' with
  | zero => exact .unfinished
  | succ fuel ih =>
    rw [Statement.loop, Statement.loop, htest m m' h]
    cases test m with
    | error e => exact .failed h
    | ok b =>
      cases b with
      | false => exact .finished h
      | true =>
        refine (hbody m m' h).andThen (fun hapart => ht.andThen hapart ?_) fun m m' h => ih h
        exact fun m m₁ => Statement.course_loop (Statement.course_onward o).toChain (fun _ => []) honward

mutual

/-- A statement that is run from two machines that are together ends in the same way, or the runs went apart. -/
theorem together_exec (ht : Tandem o o' among together apart) {n : Nat} (fuel : Nat) (s : Statement) (hs : among n s)
    (hparts : ∀ t ∈ s.parts, among (n + 1) t) {m m' : Machine} (h : together n m m') :
    Outcome.Together (together n) apart (s.exec o fuel m) (s.exec o' fuel m') := by
  match s with
  | .declaration x type init p => exact ht.plain (s := .declaration x type init p) trivial hs h fuel
  | .assignment x value p => exact ht.plain (s := .assignment x value p) trivial hs h fuel
  | .read x p => exact ht.plain (s := .read x p) trivial hs h fuel
  | .write exprs p => exact ht.plain (s := .write exprs p) trivial hs h fuel
  | .conditional condition thenBlock elseBlock p =>
    rw [Statement.parts] at hparts
    rw [Statement.exec, Statement.exec, ht.test hs (List.mem_singleton_self _) h]
    cases condition.test m.scopes with
    | error e => exact .failed h
    | ok b =>
      cases b with
      | true => exact ht.together_execBlock fuel thenBlock (fun t ht => hparts t (by simp [ht])) h
      | false => exact ht.together_execElse fuel elseBlock (fun t ht => hparts t (by simp [ht])) h
  | .repetition condition body p =>
    rw [Statement.parts] at hparts
    rw [Statement.exec, Statement.exec]
    refine ht.together_loop (fun m m' h => ht.test hs (List.mem_singleton_self _) h) (fun m m' h => ?_)
      (fun m m₁ hrun => ?_) fuel h
    · exact ht.together_execBlock fuel body (fun t ht => hparts t (by simp [ht])) (ht.report h _)
    · exact (Machine.Onward.report m o _).trans (Statement.course_execBlock (Statement.course_onward o) body hrun)
  | .block inner =>
    rw [Statement.parts] at hparts
    rw [Statement.exec, Statement.exec]
    exact ht.together_execBlock fuel inner (fun t ht => hparts t (by simp [ht])) h

theorem together_execBlock (ht : Tandem o o' among together apart) {n : Nat} (fuel : Nat) (b : Block)
    (hparts : ∀ t ∈ b.parts, among (n + 1) t) {m m' : Machine} (h : together n m m') :
    Outcome.Together (together n) apart (Statement.execBlock o fuel b m) (Statement.execBlock o' fuel b m') := by
  match b with
  | ⟨statements, p⟩ =>
    rw [Block.parts] at hparts
    rw [Statement.execBlock, Statement.execBlock]
    exact (ht.together_execAll fuel statements hparts (ht.push h)).map ht.leaving fun _ _ => ht.pop

theorem together_execElse (ht : Tandem o o' among together apart) {n : Nat} (fuel : Nat) (other : Option Block)
    (hparts : ∀ t ∈ Statement.partsElse other, among (n + 1) t) {m m' : Machine} (h : together n m m') :
    Outcome.Together (together n) apart (Statement.execElse o fuel other m) (Statement.execElse o' fuel other m') := by
  match other with
  | none =>
    rw [Statement.execElse, Statement.execElse]
    exact .finished h
  | some b =>
    rw [Statement.partsElse] at hparts
    rw [Statement.execElse, Statement.execElse]
    exact ht.together_execBlock fuel b hparts h

/-- Statements in a row that are run from two machines that are together end in the same way, or the runs went
apart. -/
theorem together_execAll (ht : Tandem o o' among together apart) {n : Nat} (fuel : Nat) (ss : List Statement)
    (hparts : ∀ t ∈ Statement.partsAll ss, among n t) {m m' : Machine} (h : together n m m') :
    Outcome.Together (together n) apart (Statement.execAll o fuel ss m) (Statement.execAll o' fuel ss m') := by
  match ss with
  | [] =>
    rw [Statement.execAll, Statement.execAll]
    exact .finished h
  | s :: rest =>
    rw [Statement.partsAll] at hparts
    rw [Statement.execAll, Statement.execAll]
    have hs : among n s := hparts s (by simp [s.mem_parts])
    have hinner : ∀ t ∈ s.parts, among (n + 1) t := fun t ht' => ht.among_succ (hparts t (by simp [ht']))
    refine (ht.together_exec fuel s hs hinner h).andThen (fun hapart => ht.andThen hapart ?_) fun m m' h => ?_
    · exact fun m m₁ => Statement.course_execAll (Statement.course_onward o) rest
    · exact ht.together_execAll fuel rest (fun t ht => hparts t (by simp [ht])) h

end

end Tandem
end Portugol
