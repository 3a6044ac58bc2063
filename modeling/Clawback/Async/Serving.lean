import Clawback.Async.Trace

/-!
# Servers

A server answers requests with the calls of a system. A request first asks for some things of its
own; then it is done, or it makes one call and replies to what has become of it. `Serves` relates
the pool of the requests to the pool of the calls that they have made.

* `System.serves_of_run`: the calls that the requests of a run have made are a run of the system.
* `Stands.result`: a request that has ended replies to a call that has ended, or has made none.
-/

namespace Async

variable {E K Q X W C α β : Type} {R : E → Type}

/-- What a request comes to. -/
inductive Task (K X α β : Type) where
  | done (result : Except X β)
  | call (k : K) (reply : Except X α → Except X β)

namespace System

/-- The rest of a request. -/
def fulfil (sys : System K E R X W C α) : Task K X α β → Prog E R X β
  | .done result => Prog.lift result
  | .call k reply => (sys.start k).attempt.bind fun r => Prog.lift (reply r)

/-- The requests to a server, which asks for what is in `front` before anything else. -/
def served (sys : System K E R X W C α) (front : Q → Prog E R X (Task K X α β)) :
    System Q E R X W C β where
  start q := (front q).bind sys.fulfil
  exec := sys.exec

theorem run_append {sys : System K E R X W C α} {moves moves' : List (Move K C)}
    {p p' p'' : Pool K E R X W α} (h : sys.run p moves = some p')
    (h' : sys.run p' moves' = some p'') :
    sys.run p (moves ++ moves') = some p'' := by
  induction moves generalizing p with
  | nil =>
    cases h
    exact h'
  | cons m moves ih =>
    obtain ⟨q, hq, hrest⟩ := Option.bind_eq_some_iff.mp h
    exact Option.bind_eq_some_iff.mpr ⟨q, hq, ih hrest⟩

/-- A thread stays with its call, and once it has ended it stays as it is. -/
theorem thread_of_apply {sys : System K E R X W C α} {p p' : Pool K E R X W α} {m : Move K C}
    (h : sys.apply p m = some p') {t : Nat} {k : K} {q : Prog E R X α}
    (hthread : p.threads[t]? = some (k, q)) :
    ∃ q', p'.threads[t]? = some (k, q') ∧ ∀ r, q.result? = some r → q' = q := by
  cases m with
  | call k' =>
    obtain rfl := apply_call h
    refine ⟨q, ?_, fun _ _ => rfl⟩
    dsimp only
    rw [List.getElem?_append_left (List.getElem?_eq_some_iff.mp hthread).1, hthread]
  | step u c =>
    obtain ⟨k', e, next, r, w, hawaiting, -, rfl⟩ := apply_step h
    by_cases hu : u = t
    · subst hu
      rw [hawaiting] at hthread
      cases hthread
      refine ⟨next r, ?_, nofun⟩
      dsimp only
      rw [List.getElem?_set_self (List.getElem?_eq_some_iff.mp hawaiting).1]
    · refine ⟨q, ?_, fun _ _ => rfl⟩
      dsimp only
      rw [List.getElem?_set_ne hu, hthread]

end System

theorem attempt_bind (p : Prog E R X α) (f : α → Prog E R X β) :
    (p.bind f).attempt = p.attempt.bind fun
      | .ok a => (f a).attempt
      | .error x => .pure (.error x) := by
  induction p with
  | pure a => rfl
  | throw x => rfl
  | await e k ih =>
    change Prog.await e _ = Prog.await e _
    congr 1
    funext r
    exact ih r

/-! ## Where a request stands -/

section Stands

variable (sys : System K E R X W C α) (S : E → Prop) (T : Task K X α β → Prop)

/-- Where a request stands that has done `tr`: it has made no call, or the call at a place of the
pool. -/
inductive Stands (tr : Trace E R X) (p : Pool K E R X W α) : Option Nat → Prog E R X β → Prop
  | front {m : Prog E R X (Task K X α β)} : m.result? = none → Only S T m →
    (∀ a ∈ tr, S a.effect) → Stands tr p none (m.bind sys.fulfil)
  | failed {x : X} : (∀ a ∈ tr, S a.effect) → Stands tr p none (.throw x)
  | done {result : Except X β} : T (.done result) → (∀ a ∈ tr, S a.effect) →
    Stands tr p none (Prog.lift result)
  | called {k : K} {reply : Except X α → Except X β} {i : Nat} {rest : Prog E R X α}
    {before : Trace E R X} : T (.call k reply) → p.threads[i]? = some (k, rest) →
    (∀ a ∈ before, S a.effect) → tr = before ++ own i p.history →
    Stands tr p (some i) (rest.attempt.bind fun r => Prog.lift (reply r))

variable {sys S T}

/-- It stands there as long as its call stays as it is. -/
theorem Stands.of_same {tr : Trace E R X} {p p' : Pool K E R X W α} {place : Option Nat}
    {q : Prog E R X β} (h : Stands sys S T tr p place q)
    (hsame : ∀ i ∈ place, p'.threads[i]? = p.threads[i]? ∧ own i p'.history = own i p.history) :
    Stands sys S T tr p' place q := by
  cases h with
  | front hrun honly htr => exact .front hrun honly htr
  | failed htr => exact .failed htr
  | done hdone htr => exact .done hdone htr
  | called hcall hthread hbefore htr =>
    obtain ⟨hthreads, hown⟩ := hsame _ rfl
    exact .called hcall (hthreads.trans hthread) hbefore (by rw [hown]; exact htr)

theorem attempt_result? {q : Prog E R X α} {r : Except X α} (h : q.result? = some r) :
    q.attempt = .pure r := by
  cases q with
  | pure a => rw [← Option.some.inj h]; rfl
  | throw x => rw [← Option.some.inj h]; rfl
  | await e next => cases h

/-- A call that awaits an effect, and the request that awaits its result. -/
theorem attempt_bind_eq_await {q : Prog E R X α} {f : Except X α → Except X β} {e : E}
    {next : Except X (R e) → Prog E R X β}
    (h : (q.attempt.bind fun r => Prog.lift (f r)) = .await e next) :
    ∃ next', q = .await e next' ∧
      next = fun r => (next' r).attempt.bind fun r => Prog.lift (f r) := by
  cases q with
  | pure a =>
    change Prog.lift (f (.ok a)) = _ at h
    cases hf : f (.ok a) <;> rw [hf] at h <;> cases h
  | throw x =>
    change Prog.lift (f (.error x)) = _ at h
    cases hf : f (.error x) <;> rw [hf] at h <;> cases h
  | await e' next' =>
    cases h
    exact ⟨next', rfl, rfl⟩

theorem lift_ne_await {r : Except X β} {e : E} {next : Except X (R e) → Prog E R X β} :
    (Prog.lift r : Prog E R X β) ≠ .await e next := by
  cases r <;> exact nofun

/-- A request that has ended replies to a call that has ended. -/
theorem reply_result {q : Prog E R X α} {f : Except X α → Except X β} {result : Except X β}
    (h : (q.attempt.bind fun r => Prog.lift (f r)).result? = some result) :
    ∃ r, q.result? = some r ∧ result = f r := by
  cases hq : q.result? with
  | none =>
    cases q with
    | pure _ => cases hq
    | throw _ => cases hq
    | await e next => cases h
  | some r =>
    rw [attempt_result? hq] at h
    change (Prog.lift (f r) : Prog E R X β).result? = some result at h
    refine ⟨r, rfl, ?_⟩
    cases hf : f r <;> rw [hf] at h <;> exact (Option.some.inj h).symm

/-- What the result of a request comes from: it has made no call, or its call has ended. -/
theorem Stands.result {tr : Trace E R X} {p : Pool K E R X W α} {place : Option Nat}
    {q : Prog E R X β} {result : Except X β} (h : Stands sys S T tr p place q)
    (hq : q.result? = some result) :
    ((∀ a ∈ tr, S a.effect) ∧ ((∃ x, result = .error x) ∨ T (.done result))) ∨
      ∃ k reply i rest r before, place = some i ∧ T (.call k reply) ∧
        p.threads[i]? = some (k, rest) ∧ rest.result? = some r ∧ result = reply r ∧
        (∀ a ∈ before, S a.effect) ∧ tr = before ++ own i p.history := by
  cases h with
  | @front m hrun honly htr =>
    cases m with
    | pure _ => cases hrun
    | throw _ => cases hrun
    | await e next => cases hq
  | failed htr => exact .inl ⟨htr, .inl ⟨_, (Option.some.inj hq).symm⟩⟩
  | @done result' hdone htr =>
    have hresult : (Prog.lift result' : Prog E R X β).result? = some result' := by
      cases result' <;> rfl
    rw [hresult] at hq
    exact .inl ⟨htr, .inr (Option.some.inj hq ▸ hdone)⟩
  | @called k reply i rest before hcall hthread hbefore htr =>
    obtain ⟨r, hr, hreply⟩ := reply_result hq
    exact .inr ⟨k, reply, i, rest, r, before, rfl, hcall, hthread, hr, hreply, hbefore, htr⟩

end Stands

/-! ## Requests and their calls -/

variable (sys : System K E R X W C α) (S : E → Prop) (T : Q → Task K X α β → Prop)
  (Rel : W → W → Prop)

/-- The requests of `P` have made the calls of `p`, each in its place. -/
structure Serves (place : Nat → Option Nat) (P : Pool Q E R X W β) (p : Pool K E R X W α) :
    Prop where
  world : Rel P.world p.world
  stands : ∀ t q prog, P.threads[t]? = some (q, prog) →
    Stands sys S (T q) (own t P.history) p (place t) prog
  placed : ∀ t, ∀ i ∈ place t, t < P.threads.length ∧ i < p.threads.length
  injective : ∀ t u, ∀ i ∈ place t, i ∈ place u → t = u
  reached : ∀ i < p.threads.length, ∃ t, place t = some i
  numbered : ∀ ev ∈ p.history, ev.thread < p.threads.length
  requests : ∀ ev ∈ P.history, ev.thread < P.threads.length

variable {sys S T Rel}

namespace Serves

variable {place : Nat → Option Nat} {P P' : Pool Q E R X W β} {p : Pool K E R X W α}

theorem init {w v : W} (h : Rel w v) :
    Serves sys S T Rel (fun _ => none) (Pool.init w) (Pool.init v) where
  world := h
  stands _ _ _ hthread := nomatch hthread
  placed _ _ hi := nomatch hi
  injective _ _ _ hi := nomatch hi
  reached _ hi := absurd hi (Nat.not_lt_zero _)
  numbered _ hev := nomatch hev
  requests _ hev := nomatch hev

/-- A request that has made no call yet moves on: `P'` is `P` with the request `t` at `m`. -/
structure Advances (P P' : Pool Q E R X W β) (t : Nat) (q : Q) (prog : Prog E R X β) :
    Prop where
  others : ∀ u qp, u ≠ t → P'.threads[u]? = some qp → P.threads[u]? = some qp
  own_eq : ∀ u, u ≠ t → own u P'.history = own u P.history
  thread : P'.threads[t]? = some (q, prog)
  length_le : P.threads.length ≤ P'.threads.length
  requests : ∀ ev ∈ P'.history, ev.thread < P'.threads.length

/-- A request that stands without a call. -/
theorem of_advances {t : Nat} {q : Q} {prog : Prog E R X β} (h : Serves sys S T Rel place P p)
    (hadv : Advances P P' t q prog) (hworld : Rel P'.world p.world) (hplace : place t = none)
    (hstands : Stands sys S (T q) (own t P'.history) p none prog) :
    Serves sys S T Rel place P' p where
  world := hworld
  stands u q' prog' hthread := by
    by_cases hu : u = t
    · subst hu
      rw [hadv.thread] at hthread
      cases hthread
      rw [hplace]
      exact hstands
    · rw [hadv.own_eq u hu]
      exact h.stands u q' prog' (hadv.others u _ hu hthread)
  placed u i hi := ⟨Nat.lt_of_lt_of_le (h.placed u i hi).1 hadv.length_le, (h.placed u i hi).2⟩
  injective := h.injective
  reached := h.reached
  numbered := h.numbered
  requests := hadv.requests

/-- A request that makes its call. -/
theorem of_calls {t : Nat} {q : Q} {k : K} {reply : Except X α → Except X β}
    (h : Serves sys S T Rel place P p)
    (hadv : Advances P P' t q ((sys.start k).attempt.bind fun r => Prog.lift (reply r)))
    (hworld : Rel P'.world p.world) (hplace : place t = none)
    (htr : ∀ a ∈ own t P'.history, S a.effect) (hcall : T q (.call k reply)) :
    Serves sys S T Rel (fun u => if u = t then some p.threads.length else place u) P'
      ⟨p.world, p.history ++ [.called p.threads.length k], p.threads ++ [(k, sys.start k)]⟩ where
  world := hworld
  stands u q' prog' hthread := by
    by_cases hu : u = t
    · subst hu
      rw [hadv.thread] at hthread
      cases hthread
      rw [if_pos rfl]
      refine .called hcall ?_ htr ?_
      · rw [List.getElem?_append_right (Nat.le_refl _), Nat.sub_self]
        rfl
      · rw [own_append, own_called, own_eq_nil fun ev hev => Nat.ne_of_lt (h.numbered ev hev)]
        exact (List.append_nil _).symm
    · rw [if_neg hu, hadv.own_eq u hu]
      refine (h.stands u q' prog' (hadv.others u _ hu hthread)).of_same fun i hi => ?_
      refine ⟨List.getElem?_append_left (h.placed u i hi).2, ?_⟩
      rw [own_append, own_called, List.append_nil]
  placed u i hi := by
    rw [List.length_append, List.length_singleton]
    split at hi
    · rename_i hu
      cases hi
      exact ⟨hu ▸ (List.getElem?_eq_some_iff.mp hadv.thread).1, Nat.lt_succ_self _⟩
    · obtain ⟨hlt, hlt'⟩ := h.placed u i hi
      exact ⟨Nat.lt_of_lt_of_le hlt hadv.length_le, Nat.lt_succ_of_lt hlt'⟩
  injective u v i hi hi' := by
    split at hi <;> split at hi'
    · rename_i hu hv
      rw [hu, hv]
    · cases hi
      exact absurd (h.placed v _ hi').2 (Nat.lt_irrefl _)
    · cases hi'
      exact absurd (h.placed u _ hi).2 (Nat.lt_irrefl _)
    · exact h.injective u v i hi hi'
  reached i hi := by
    rw [List.length_append, List.length_singleton] at hi
    rcases Nat.lt_succ_iff_lt_or_eq.mp hi with hlt | rfl
    · obtain ⟨u, hu⟩ := h.reached i hlt
      refine ⟨u, ?_⟩
      have hne : u ≠ t := by
        rintro rfl
        rw [hplace] at hu
        cases hu
      exact (if_neg hne).trans hu
    · exact ⟨t, if_pos rfl⟩
  numbered := by
    rw [List.length_append, List.length_singleton]
    exact System.numbered_called h.numbered
  requests := hadv.requests

/-- A request that has not made its call yet: it makes it as soon as it can. -/
theorem settle {t : Nat} {q : Q} {m : Prog E R X (Task K X α β)}
    (h : Serves sys S T Rel place P p) (hadv : Advances P P' t q (m.bind sys.fulfil))
    (hworld : Rel P'.world p.world) (hplace : place t = none)
    (htr : ∀ a ∈ own t P'.history, S a.effect) (hm : Only S (T q) m) :
    ∃ moves p' place', sys.run p moves = some p' ∧ Serves sys S T Rel place' P' p' := by
  cases m with
  | pure task =>
    cases task with
    | done result => exact ⟨[], p, place, rfl, h.of_advances hadv hworld hplace (.done hm htr)⟩
    | call k reply => exact ⟨[.call k], _, _, rfl, h.of_calls hadv hworld hplace htr hm⟩
  | throw x => exact ⟨[], p, place, rfl, h.of_advances hadv hworld hplace (.failed htr)⟩
  | await e next =>
    exact ⟨[], p, place, rfl, h.of_advances hadv hworld hplace (.front rfl hm htr)⟩

/-- A call goes on, and the request that awaits its result with it. -/
theorem of_step {t i : Nat} {q : Q} {k : K} {e : E} {next : Except X (R e) → Prog E R X α}
    {reply : Except X α → Except X β} {r : Except X (R e)} {w v : W} {before : Trace E R X}
    (h : Serves sys S T Rel place P p)
    (hadv : Advances P P' t q ((next r).attempt.bind fun r => Prog.lift (reply r)))
    (hworld : Rel w v) (hw : P'.world = w) (hplace : place t = some i)
    (hcall : T q (.call k reply)) (hthread : p.threads[i]? = some (k, .await e next))
    (hbefore : ∀ a ∈ before, S a.effect)
    (htr : own t P'.history = before ++ own i p.history ++ [⟨e, r⟩]) :
    Serves sys S T Rel place P'
      ⟨v, p.history ++ [.did i ⟨e, r⟩], p.threads.set i (k, next r)⟩ where
  world := hw ▸ hworld
  stands u q' prog' hthread' := by
    by_cases hu : u = t
    · subst hu
      rw [hadv.thread] at hthread'
      cases hthread'
      rw [hplace]
      refine .called hcall ?_ hbefore ?_
      · rw [List.getElem?_set_self (List.getElem?_eq_some_iff.mp hthread).1]
      · rw [own_append, own_did_self, htr, List.append_assoc]
    · rw [hadv.own_eq u hu]
      refine (h.stands u q' prog' (hadv.others u _ hu hthread')).of_same fun j hj => ?_
      have hne : i ≠ j := fun hij => hu (h.injective u t j hj (hij ▸ hplace))
      refine ⟨List.getElem?_set_ne hne, ?_⟩
      rw [own_append, own_did_ne hne, List.append_nil]
  placed u j hj := by
    rw [List.length_set]
    exact ⟨Nat.lt_of_lt_of_le (h.placed u j hj).1 hadv.length_le, (h.placed u j hj).2⟩
  injective := h.injective
  reached j hj := h.reached j (by rwa [List.length_set] at hj)
  numbered := by
    rw [List.length_set]
    exact System.numbered_did h.numbered (List.getElem?_eq_some_iff.mp hthread).1
  requests := hadv.requests

end Serves

/-! ## What has been done -/

/-- The request `t` of `q` has made the call `i`, which is `k`. -/
structure Made (T : Q → Task K X α β → Prop) (place : Nat → Option Nat) (P : Pool Q E R X W β)
    (p : Pool K E R X W α) (t i : Nat) (q : Q) (k : K) : Prop where
  place : place t = some i
  request : ∃ prog, P.threads[t]? = some (q, prog)
  call : ∃ rest, p.threads[i]? = some (k, rest)
  task : ∃ reply, T q (.call k reply)

namespace Serves

variable {place : Nat → Option Nat} {P : Pool Q E R X W β} {p : Pool K E R X W α}

/-- What a request has done is its own, or its call has done it. -/
theorem made_of_did (h : Serves sys S T Rel place P p) {t : Nat} {a : Entry E R X}
    (hdid : .did t a ∈ P.history) : S a.effect ∨
      ∃ i q k, Made T place P p t i q k ∧ .did i a ∈ p.history := by
  obtain ⟨⟨q, prog⟩, hthread⟩ : ∃ qp, P.threads[t]? = some qp :=
    ⟨_, List.getElem?_eq_getElem (h.requests _ hdid)⟩
  have hmem : a ∈ own t P.history := mem_own.mpr hdid
  have hstands := h.stands t q prog hthread
  generalize hplace : place t = at? at hstands
  cases hstands with
  | front _ _ htr => exact .inl (htr a hmem)
  | failed htr => exact .inl (htr a hmem)
  | done _ htr => exact .inl (htr a hmem)
  | @called k reply i rest before htask hcall hbefore htr =>
    rw [htr] at hmem
    rcases List.mem_append.mp hmem with hmem | hmem
    · exact .inl (hbefore a hmem)
    · exact .inr ⟨i, q, k, ⟨hplace, ⟨_, hthread⟩, ⟨rest, hcall⟩, reply, htask⟩, mem_own.mp hmem⟩

/-- A call has been made by a request, which has done all that the call has done. -/
theorem made_of_lt (h : Serves sys S T Rel place P p) {i : Nat} (hi : i < p.threads.length) :
    ∃ t q k, Made T place P p t i q k ∧ ∀ a, .did i a ∈ p.history → .did t a ∈ P.history := by
  obtain ⟨t, ht⟩ := h.reached i hi
  obtain ⟨⟨q, prog⟩, hthread⟩ : ∃ qp, P.threads[t]? = some qp :=
    ⟨_, List.getElem?_eq_getElem (h.placed t i ht).1⟩
  have hstands := h.stands t q prog hthread
  rw [ht] at hstands
  cases hstands with
  | @called k reply _ rest before htask hcall _ htr =>
    refine ⟨t, q, k, ⟨ht, ⟨_, hthread⟩, ⟨rest, hcall⟩, reply, htask⟩, fun a hdid => ?_⟩
    refine mem_own.mp ?_
    rw [htr]
    exact List.mem_append_right _ (mem_own.mpr hdid)

/-- What a call has done, the request has done that has made it. -/
theorem did_of_call (h : Serves sys S T Rel place P p) {i : Nat} {a : Entry E R X}
    (hdid : .did i a ∈ p.history) : ∃ t q k, Made T place P p t i q k ∧ .did t a ∈ P.history := by
  obtain ⟨t, q, k, hmade, hall⟩ := h.made_of_lt (h.numbered _ hdid)
  exact ⟨t, q, k, hmade, hall a hdid⟩

/-- A request that has made its call replies to what has become of it. -/
theorem reply_of_made (h : Serves sys S T Rel place P p) {t i : Nat} {q : Q} {k : K}
    (hmade : Made T place P p t i q k) {prog : Prog E R X β}
    (hthread : P.threads[t]? = some (q, prog)) {result : Except X β}
    (hresult : prog.result? = some result) :
    ∃ reply rest r, T q (.call k reply) ∧ p.threads[i]? = some (k, rest) ∧
      rest.result? = some r ∧ result = reply r := by
  have hstands := h.stands t q prog hthread
  rw [hmade.place] at hstands
  obtain ⟨rest, hcall⟩ := hmade.call
  cases hstands with
  | @called k' reply _ rest' before htask hthread' _ _ =>
    rw [hcall] at hthread'
    cases hthread'
    obtain ⟨r, hr, heq⟩ := reply_result hresult
    exact ⟨reply, rest, r, htask, hcall, hr, heq⟩

end Serves

/-! ## Runs -/

/-- What a request asks for before its call stays on its side, and the effects of the calls are
answered in the other world too. -/
structure Backs (sys : System K E R X W C α) (S : E → Prop) (Rel : W → W → Prop) : Prop where
  front : ∀ e c w r w₁ v, S e → Rel w v → sys.exec e c w = some (r, w₁) → Rel w₁ v
  call : ∀ e c w r w₁ v, Rel w v → sys.exec e c w = some (r, w₁) →
    ∃ c' v₁, sys.exec e c' v = some (r, v₁) ∧ Rel w₁ v₁

theorem advances_call {P : Pool Q E R X W β} (q : Q) (prog : Prog E R X β)
    (hrequests : ∀ ev ∈ P.history, ev.thread < P.threads.length) :
    Serves.Advances P ⟨P.world, P.history ++ [.called P.threads.length q],
      P.threads ++ [(q, prog)]⟩ P.threads.length q prog where
  others u qp hu hthread := by
    rcases System.thread_of_append hthread with hold | ⟨hnew, -⟩
    · exact hold
    · exact absurd hnew hu
  own_eq u _ := by rw [own_append, own_called, List.append_nil]
  thread := by
    rw [List.getElem?_append_right (Nat.le_refl _), Nat.sub_self]
    rfl
  length_le := by
    rw [List.length_append]
    exact Nat.le_add_right _ _
  requests := by
    rw [List.length_append, List.length_singleton]
    exact System.numbered_called hrequests

theorem advances_step {P : Pool Q E R X W β} {t : Nat} {q : Q} {old prog : Prog E R X β}
    {a : Entry E R X} {w : W} (hthread : P.threads[t]? = some (q, old))
    (hrequests : ∀ ev ∈ P.history, ev.thread < P.threads.length) :
    Serves.Advances P ⟨w, P.history ++ [.did t a], P.threads.set t (q, prog)⟩ t q prog where
  others u qp hu hthread' := by
    rcases System.thread_of_set hthread hthread' with ⟨hsame, -⟩ | ⟨-, hother⟩
    · exact absurd hsame hu
    · exact hother
  own_eq u hu := by rw [own_append, own_did_ne (Ne.symm hu), List.append_nil]
  thread := List.getElem?_set_self (List.getElem?_eq_some_iff.mp hthread).1
  length_le := Nat.le_of_eq (List.length_set).symm
  requests := by
    rw [List.length_set]
    exact System.numbered_did hrequests (List.getElem?_eq_some_iff.mp hthread).1

theorem own_did_mem {t : Nat} {h : History Q E R X} {a : Entry E R X}
    (hall : ∀ b ∈ own t h, S b.effect) (ha : S a.effect) :
    ∀ b ∈ own t (h ++ [.did t a]), S b.effect := by
  rw [own_append, own_did_self]
  intro b hb
  rcases List.mem_append.mp hb with hb | hb
  · exact hall b hb
  · rw [List.mem_singleton.mp hb]
    exact ha

theorem Serves.of_apply {place : Nat → Option Nat} {P P' : Pool Q E R X W β}
    {p : Pool K E R X W α} {front : Q → Prog E R X (Task K X α β)} (hback : Backs sys S Rel)
    (hfront : ∀ q, Only S (T q) (front q)) (h : Serves sys S T Rel place P p) {m : Move Q C}
    (happly : (sys.served front).apply P m = some P') :
    ∃ moves p' place', sys.run p moves = some p' ∧ Serves sys S T Rel place' P' p' := by
  cases m with
  | call q =>
    rw [System.apply_call happly]
    have hplace : place P.threads.length = none := by
      by_contra hsome
      obtain ⟨i, hi⟩ := Option.ne_none_iff_exists'.mp hsome
      exact absurd (h.placed _ i hi).1 (Nat.lt_irrefl _)
    refine h.settle (advances_call q _ h.requests) h.world hplace ?_ (hfront q)
    rw [own_append, own_called, own_eq_nil fun ev hev => Nat.ne_of_lt (h.requests ev hev)]
    exact fun a ha => nomatch ha
  | step t c =>
    obtain ⟨q, e, next, r, w, hthread, hexec, rfl⟩ := System.apply_step happly
    have hstands := h.stands t q _ hthread
    generalize hplace : place t = at? at hstands
    generalize hprog : Prog.await e next = prog at hstands
    cases hstands with
    | @front m hrun honly htr =>
      cases m with
      | pure _ => cases hrun
      | throw _ => cases hrun
      | await e' next' =>
        cases hprog
        exact h.settle (advances_step hthread h.requests)
          (hback.front _ _ _ _ _ _ honly.1 h.world hexec) hplace (own_did_mem htr honly.1)
          (honly.2 r)
    | failed _ => cases hprog
    | done _ _ => exact absurd hprog.symm lift_ne_await
    | @called k reply i rest before hcall hinner hbefore htr =>
      obtain ⟨next', rfl, rfl⟩ := attempt_bind_eq_await hprog.symm
      obtain ⟨c', v, hexec', hworld⟩ := hback.call _ _ _ _ _ _ h.world hexec
      refine ⟨[.step i c'], _, place, ?_, h.of_step (advances_step hthread h.requests) hworld rfl
        hplace hcall hinner hbefore ?_⟩
      · simp only [System.run, System.apply, hinner, hexec', Option.bind_some]
      · rw [own_append, own_did_self, htr]

/-- The calls that the requests of a run have made are a run of the system behind the server. -/
theorem System.serves_of_run {front : Q → Prog E R X (Task K X α β)} (hback : Backs sys S Rel)
    (hfront : ∀ q, Only S (T q) (front q)) {w v : W} (hworld : Rel w v) {moves : List (Move Q C)}
    {P : Pool Q E R X W β} (hrun : (sys.served front).run (Pool.init w) moves = some P) :
    ∃ moves' p place, sys.run (Pool.init v) moves' = some p ∧
      Serves sys S T Rel place P p := by
  refine System.run_induction (I := fun P => ∃ moves' p place,
    sys.run (Pool.init v) moves' = some p ∧ Serves sys S T Rel place P p) ?_
    ⟨[], _, _, rfl, .init hworld⟩ hrun
  rintro P m P' ⟨moves', p, place, hp, hserves⟩ happly
  obtain ⟨moves'', p', place', hp', hserves'⟩ := hserves.of_apply hback hfront happly
  exact ⟨moves' ++ moves'', p', place', System.run_append hp hp', hserves'⟩

end Async
