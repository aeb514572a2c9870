import ClickScope.Async.Pool
import Mathlib.Data.List.Forall2

/-!
# A Pool in Front of Another

Requests that end in at most one call of another pool.

A pool in front has more operations than the one behind it. Some of them are
operations of the pool behind. Others it performs on its own, and these leave
the world behind as it is. A program in front is `Fronted` if it performs
operations of its own, and then either ends, or becomes the program of one call
of the pool behind, with its result turned into one of its own.

Which call it is may depend on what it was told until then, so it is not known
when the request starts. Therefore the pool behind is given, for each request,
the call it will make, and any call at all for a request that has not made one
yet; a thread of such a call has not moved. In the end every run in front is a
run behind: the same world, the events of the calls in the same order, and
threads that start and end in the same order.

## Main definitions

* `Front`: How the pool in front relates to the one behind it.
* `Front.serve`: The program of a call, in front.
* `Fronted`: Operations of its own, then at most one call.
* `Forward`, `Behind`: A configuration in front, and one behind it.

## Theorems

* `fronted_bind`: Programs that begin with operations of their own.
* `forward_run`, `behind_run`: A step of a request.
* `exists_behind`: Every run in front is a run behind.
-/

namespace Async

variable {Op : Type} {Res : Op → Type} {Err Out Call Env World : Type}
  {Op' : Type} {Res' : Op' → Type} {Err' Out' Call' Env' World' : Type} {Choice : Type}

/-- A program that has ended. -/
def Prog.ended {ε α : Type} : Except ε α → Prog Op Res ε α
  | .ok a => .ret a
  | .error e => .throw e

/-- Embedding goes through sequences. -/
theorem Prog.embed_bind {ε ε' α β : Type} (f : Op → Op') (g : ∀ op, Res' (f op) → Res op)
    (e : ε → ε') (h : α → Prog Op Res ε β) :
    ∀ x : Prog Op Res ε α, (x.bind h).embed f g e
      = (x.embed f g e).bind (fun a => (h a).embed f g e) := by
  intro x
  induction x with
  | ret a => rfl
  | throw err => rfl
  | await op k ih => exact congrArg (Prog.await (f op)) (funext fun r => ih (g op r))

theorem Prog.bind_assoc {ε α β γ : Type} (f : α → Prog Op Res ε β) (g : β → Prog Op Res ε γ) :
    ∀ x : Prog Op Res ε α, (x.bind f).bind g = x.bind (fun a => (f a).bind g) := by
  intro x
  induction x with
  | ret a => rfl
  | throw e => rfl
  | await op k ih => exact congrArg (Prog.await op) (funext ih)

@[simp] theorem ended_finished {ε α : Type} (r : Except ε α) :
    (Prog.ended r : Prog Op Res ε α).finished = true := by
  cases r <;> rfl

@[simp] theorem ended_result {ε α : Type} (r : Except ε α) :
    (Prog.ended r : Prog Op Res ε α).result = some r := by
  cases r <;> rfl

/-- What events were answered, newest first. -/
def trace (l : List (Event Op Res Call Choice World)) : List (Σ op, Res op) :=
  l.map (fun e => ⟨e.op, e.res⟩)

/-- How many events of a history were there when all of it was `n` long. -/
def before (l : List (Event Op Res Call Choice World)) (n : Nat) : Nat :=
  l.countP (fun e => decide (e.seq < n))

/-- How a pool in front relates to the one behind it: what an operation of the
    pool behind is called in front, what the pool behind sees of the world and
    of what happens to it, and which operations the pool in front performs on
    its own. These leave the world behind as it is. -/
structure Front (S : System Op Res Err Out Call Env Choice World)
    (T : System Op' Res' Err' Out' Call' Env' Choice World') where
  op : Op → Op'
  res : ∀ o, Res' (op o) → Res o
  view : World' → World
  exec : ∀ i o ch w r w', T.exec i (op o) ch w = some (r, w') →
    S.exec i o ch (view w) = some (res o r, view w')
  env : ∀ e w w', T.env e w = some w' →
    view w' = view w ∨ ∃ e', S.env e' (view w) = some (view w')
  reap : ∀ i w, view (T.reap i w) = S.reap i (view w)
  own : Op' → Prop
  quiet : ∀ i o ch w r w', own o → T.exec i o ch w = some (r, w') → view w' = view w

section Programs

variable {S : System Op Res Err Out Call Env Choice World}
  {T : System Op' Res' Err' Out' Call' Env' Choice World'}

namespace Front

/-- An answer an operation can give. -/
def Answers (_ : Front S T) (o : Op') (r : Res' o) : Prop :=
  ∃ i ch w w', T.exec i o ch w = some (r, w')

/-- A program behind as one in front, which ends with what `fin` makes of its
    result. -/
def serve (F : Front S T) (fin : Except Err Out → Except Err' Out') :
    Prog Op Res Err Out → Prog Op' Res' Err' Out'
  | .ret a => .ended (fin (.ok a))
  | .throw e => .ended (fin (.error e))
  | .await o k => .await (F.op o) (fun r => F.serve fin (k (F.res o r)))

theorem serve_result (F : Front S T) (fin : Except Err Out → Except Err' Out')
    (p : Prog Op Res Err Out) : (F.serve fin p).result = p.result.map fin := by
  cases p with
  | ret a => exact ended_result _
  | throw e => exact ended_result _
  | await o k => rfl

theorem serve_finished (F : Front S T) (fin : Except Err Out → Except Err' Out')
    (p : Prog Op Res Err Out) : (F.serve fin p).finished = p.finished := by
  cases p with
  | ret a => exact ended_finished _
  | throw e => exact ended_finished _
  | await o k => rfl

theorem serve_await {F : Front S T} {fin : Except Err Out → Except Err' Out'}
    {p : Prog Op Res Err Out} {o' : Op'} {k' : Res' o' → Prog Op' Res' Err' Out'}
    (h : F.serve fin p = .await o' k') :
    ∃ o k, p = .await o k ∧ (⟨o', k'⟩ : Σ o, Res' o → Prog Op' Res' Err' Out') =
      ⟨F.op o, fun r => F.serve fin (k (F.res o r))⟩ := by
  cases p with
  | ret a =>
      have hfin := congrArg Prog.finished h
      rw [serve_finished] at hfin
      cases hfin
  | throw e =>
      have hfin := congrArg Prog.finished h
      rw [serve_finished] at hfin
      cases hfin
  | await o k =>
      simp only [serve] at h
      refine ⟨o, k, rfl, ?_⟩
      injection h with hop hk
      subst hop
      rw [eq_of_heq hk]

/-- An event behind, and the event in front that it is. -/
structure Echo (F : Front S T) (e' : Event Op' Res' Call' Choice World')
    (e : Event Op Res Call Choice World) : Prop where
  tid : e.tid = e'.tid
  answer : ∃ r, (⟨e'.op, e'.res⟩ : Σ o, Res' o) = ⟨F.op e.op, r⟩ ∧ e.res = F.res e.op r
  choice : e.choice = e'.choice
  after : e.after = F.view e'.after

end Front

/-- What a request asks of the pool behind: the call, what becomes of its
    result, and what was answered before. -/
structure Asked (Op' : Type) (Res' : Op' → Type) (Err Out Call Err' Out' : Type) where
  call : Call
  fin : Except Err Out → Except Err' Out'
  told : List (Σ o, Res' o)

/-- A program in front that performs operations of its own, and then ends or
    becomes the program of one call. `asks` says which calls it may make, and `refuses`
    how it may end without one, by what it was told before, newest first. -/
inductive Fronted (F : Front S T) (asks : Asked Op' Res' Err Out Call Err' Out' → Prop)
    (refuses : List (Σ o, Res' o) → Except Err' Out' → Prop) :
    List (Σ o, Res' o) → Prog Op' Res' Err' Out' → Prop
  | refused (told : List (Σ o, Res' o)) (r : Except Err' Out') :
      refuses told r → Fronted F asks refuses told (.ended r)
  | own (told : List (Σ o, Res' o)) (o : Op') (k : Res' o → Prog Op' Res' Err' Out') :
      F.own o → (∀ r, F.Answers o r → Fronted F asks refuses (⟨o, r⟩ :: told) (k r)) →
        Fronted F asks refuses told (.await o k)
  | served (a : Asked Op' Res' Err Out Call Err' Out') :
      asks a → (S.body a.call).finished = false →
        Fronted F asks refuses a.told (F.serve a.fin (S.body a.call))

/-- A program that only performs operations of its own, and what it ends with. -/
def Opens {α : Type} (F : Front S T) (Post : List (Σ o, Res' o) → Except Err' α → Prop) :
    List (Σ o, Res' o) → Prog Op' Res' Err' α → Prop
  | told, .ret a => Post told (.ok a)
  | told, .throw e => Post told (.error e)
  | told, .await o k => F.own o ∧ ∀ r, F.Answers o r → Opens F Post (⟨o, r⟩ :: told) (k r)

theorem opens_mono {α : Type} {F : Front S T}
    {Post Post' : List (Σ o, Res' o) → Except Err' α → Prop}
    (hpost : ∀ told r, Post told r → Post' told r) :
    ∀ (p : Prog Op' Res' Err' α) (told : List (Σ o, Res' o)), Opens F Post told p →
      Opens F Post' told p := by
  intro p
  induction p with
  | ret a => exact fun told h => hpost told _ h
  | throw e => exact fun told h => hpost told _ h
  | await o k ih => exact fun told h => ⟨h.1, fun r hr => ih r _ (h.2 r hr)⟩

/-- What was told before stays told. -/
theorem opens_told {α : Type} {F : Front S T}
    {Post : List (Σ o, Res' o) → Except Err' α → Prop} {told₀ : List (Σ o, Res' o)} :
    ∀ (p : Prog Op' Res' Err' α) (told : List (Σ o, Res' o)), told₀ ⊆ told →
      Opens F (fun _ r => ∀ told', told₀ ⊆ told' → Post told' r) told p → Opens F Post told p := by
  intro p
  induction p with
  | ret a => exact fun told hsub h => h told hsub
  | throw e => exact fun told hsub h => h told hsub
  | await o k ih =>
      exact fun told hsub h => ⟨h.1, fun r hr =>
        ih r _ (List.subset_cons_of_subset _ hsub) (h.2 r hr)⟩

/-- A sequence of programs that only perform operations of their own. -/
theorem opens_bind {α β : Type} {F : Front S T}
    {Post : List (Σ o, Res' o) → Except Err' β → Prop} {f : α → Prog Op' Res' Err' β} :
    ∀ (p : Prog Op' Res' Err' α) (told : List (Σ o, Res' o)),
      Opens F (fun told' r => match r with
        | .ok a => Opens F Post told' (f a)
        | .error e => Post told' (.error e)) told p → Opens F Post told (p.bind f) := by
  intro p
  induction p with
  | ret a => exact fun told h => h
  | throw e => exact fun told h => h
  | await o k ih => exact fun told h => ⟨h.1, fun r hr => ih r _ (h.2 r hr)⟩

variable {F : Front S T} {asks : Asked Op' Res' Err Out Call Err' Out' → Prop}
  {refuses : List (Σ o, Res' o) → Except Err' Out' → Prop}

/-- A program that begins with operations of its own. -/
theorem fronted_bind {α : Type} {f : α → Prog Op' Res' Err' Out'} :
    ∀ (p : Prog Op' Res' Err' α) (told : List (Σ o, Res' o)),
      Opens F (fun told' r => match r with
        | .ok a => Fronted F asks refuses told' (f a)
        | .error e => refuses told' (.error e)) told p →
      Fronted F asks refuses told (p.bind f) := by
  intro p
  induction p with
  | ret a => exact fun told h => h
  | throw e => exact fun told h => .refused told (.error e) h
  | await o k ih => exact fun told h => .own told o _ h.1 (fun r hr => ih r _ (h.2 r hr))

/-- A program that only performs operations of its own makes no call. -/
theorem fronted_opens (p : Prog Op' Res' Err' Out') (told : List (Σ o, Res' o))
    (h : Opens F refuses told p) : Fronted F asks refuses told p := by
  induction p generalizing told with
  | ret a => exact .refused told (.ok a) h
  | throw e => exact .refused told (.error e) h
  | await o k ih => exact .own told o k h.1 (fun r hr => ih r _ (h.2 r hr))

/-- A program behind, followed by something that performs no operations, is
    what serves its call. -/
theorem serve_bind {α : Type} (fin : Except Err Out → Except Err' Out') (g : α → Out)
    (err : Err → Err') {h : α → Prog Op' Res' Err' Out'}
    (hok : ∀ a, h a = .ended (fin (.ok (g a)))) (herr : ∀ e, fin (.error e) = .error (err e)) :
    ∀ x : Prog Op Res Err α,
      (x.embed F.op F.res err).bind h = F.serve fin (x.bind (fun a => .ret (g a))) := by
  intro x
  induction x with
  | ret a => exact hok a
  | throw e =>
      show Prog.throw (err e) = Prog.ended (fin (.error e))
      rw [herr]
      rfl
  | await o k ih => exact congrArg (Prog.await (F.op o)) (funext fun r => ih (F.res o r))

end Programs

section Refinement

variable {S : System Op Res Err Out Call Env Choice World}
  {T : System Op' Res' Err' Out' Call' Env' Choice World'} (F : Front S T)
  (asks : Call' → Asked Op' Res' Err Out Call Err' Out' → Prop)
  (refuses : Call' → List (Σ o, Res' o) → Except Err' Out' → Prop)

/-- A configuration in front: which requests have made their call, and which
    events are events of calls. -/
structure Forward (asked : Nat → Option (Asked Op' Res' Err Out Call Err' Out'))
    (l : List (Event Op' Res' Call' Choice World'))
    (c : Config Op' Res' Err' Out' Call' Choice World') : Prop where
  sub : l.Sublist c.state.log
  seqLt : c.state.SeqLt
  own : ∀ e ∈ c.state.log, e ∈ l ∨ F.own e.op
  waits : ∀ i u, c.threads[i]? = some u → asked i = none →
    (∀ e ∈ l, e.tid ≠ i) ∧ Fronted F (asks u.call) (refuses u.call) (trace (c.state.mine i)) u.prog
  asks : ∀ i u a, c.threads[i]? = some u → asked i = some a →
    asks u.call a ∧ a.told <:+ trace (c.state.mine i) ∧ ∀ x ∈ a.told, F.own x.1
  fresh : ∀ i, c.threads.length ≤ i → asked i = none
  tids : ∀ e ∈ c.state.log, e.tid < c.threads.length
  born : ∀ u ∈ c.threads, u.born ≤ c.state.log.length ∧
    ∀ n, u.ended = some n → n ≤ c.state.log.length

/-- A thread in front, and the thread behind it. The call of the one behind is
    the one that was asked for, or any until then. -/
structure Facing (l : List (Event Op' Res' Call' Choice World'))
    (a : Option (Asked Op' Res' Err Out Call Err' Out')) (call : Call)
    (u : Thread Op' Res' Err' Out' Call') (t : Thread Op Res Err Out Call) : Prop where
  call : t.call = (a.map (·.call)).getD call
  alive : t.alive = u.alive
  born : t.born = before l u.born
  waits : a = none → t.prog = S.body t.call ∧ t.ended = none
  serves : ∀ b, a = some b → u.prog = F.serve b.fin t.prog ∧ t.ended = u.ended.map (before l)

/-- A configuration behind one in front. -/
structure Behind (asked : Nat → Option (Asked Op' Res' Err Out Call Err' Out'))
    (choose : Nat → Call) (l : List (Event Op' Res' Call' Choice World'))
    (c : Config Op' Res' Err' Out' Call' Choice World')
    (d : Config Op Res Err Out Call Choice World) : Prop where
  world : d.state.world = F.view c.state.world
  echo : List.Forall₂ F.Echo l d.state.log
  size : d.threads.length = c.threads.length
  facing : ∀ i u t, c.threads[i]? = some u → d.threads[i]? = some t →
    Facing F l (asked i) (choose i) u t

variable {F asks refuses} {asked : Nat → Option (Asked Op' Res' Err Out Call Err' Out')}
  {choose : Nat → Call} {l : List (Event Op' Res' Call' Choice World')}
  {c : Config Op' Res' Err' Out' Call' Choice World'} {d : Config Op Res Err Out Call Choice World}

theorem before_all {n : Nat} (h : ∀ e ∈ l, e.seq < n) : before l n = l.length :=
  List.countP_eq_length.mpr fun e he => decide_eq_true (h e he)

/-- A later event does not count for an earlier moment. -/
theorem before_cons {e : Event Op' Res' Call' Choice World'} {n : Nat} (h : n ≤ e.seq) :
    before (e :: l) n = before l n := by
  have hno : ¬ decide (e.seq < n) = true := by
    rw [decide_eq_true_eq]
    omega
  exact List.countP_cons_of_neg hno

theorem facing_cons {a : Option (Asked Op' Res' Err Out Call Err' Out')} {call : Call}
    {u : Thread Op' Res' Err' Out' Call'} {t : Thread Op Res Err Out Call}
    {e : Event Op' Res' Call' Choice World'} (h : Facing F l a call u t) (hborn : u.born ≤ e.seq)
    (hended : ∀ n, u.ended = some n → n ≤ e.seq) : Facing F (e :: l) a call u t where
  call := h.call
  alive := h.alive
  born := by rw [before_cons hborn, h.born]
  waits := h.waits
  serves := by
    intro b hb
    refine ⟨(h.serves b hb).1, ?_⟩
    rw [(h.serves b hb).2]
    cases hu : u.ended with
    | none => rfl
    | some n => exact congrArg some (before_cons (hended n hu)).symm

/-- Each event of a call is behind one, and has one behind it. -/
theorem echo_front {l : List (Event Op' Res' Call' Choice World')}
    {l' : List (Event Op Res Call Choice World)} (h : List.Forall₂ F.Echo l l') :
    ∀ e ∈ l', ∃ e' ∈ l, F.Echo e' e := by
  induction h with
  | nil => exact fun e he => by cases he
  | cons hecho _ ih =>
      intro e he
      rcases List.mem_cons.mp he with rfl | he
      · exact ⟨_, List.mem_cons_self, hecho⟩
      · rcases ih e he with ⟨e', he', hecho'⟩
        exact ⟨e', List.mem_cons_of_mem _ he', hecho'⟩

theorem echo_behind {l : List (Event Op' Res' Call' Choice World')}
    {l' : List (Event Op Res Call Choice World)} (h : List.Forall₂ F.Echo l l') :
    ∀ e' ∈ l, ∃ e ∈ l', F.Echo e' e := by
  induction h with
  | nil => exact fun e he => by cases he
  | cons hecho _ ih =>
      intro e' he'
      rcases List.mem_cons.mp he' with rfl | he'
      · exact ⟨_, List.mem_cons_self, hecho⟩
      · rcases ih e' he' with ⟨e, he, hecho'⟩
        exact ⟨e, List.mem_cons_of_mem _ he, hecho'⟩

/-- The thread behind a thread. -/
theorem Behind.thread (h : Behind F asked choose l c d) {i : Nat}
    {u : Thread Op' Res' Err' Out' Call'} (hu : c.threads[i]? = some u) :
    ∃ t, d.threads[i]? = some t ∧ Facing F l (asked i) (choose i) u t := by
  have hlt : i < d.threads.length := by
    rw [h.size]
    exact (List.getElem?_eq_some_iff.mp hu).1
  exact ⟨d.threads[i], List.getElem?_eq_getElem hlt,
    h.facing i u _ hu (List.getElem?_eq_getElem hlt)⟩

/-- As many events behind as there are events of calls. -/
theorem Behind.length (h : Behind F asked choose l c d) (hf : Forward F asks refuses asked l c)
    {n : Nat} (hn : c.state.log.length ≤ n) : before l n = d.state.log.length := by
  rw [← h.echo.length_eq]
  exact before_all fun e he => Nat.lt_of_lt_of_le (hf.seqLt e (hf.sub.subset he)) hn

theorem forward_mine_start (hf : Forward F asks refuses asked l c) :
    c.state.mine c.threads.length = [] := by
  refine List.filter_eq_nil_iff.mpr fun e he heq => ?_
  have hlt := hf.tids e he
  rw [beq_iff_eq] at heq
  omega

/-- A request starts, and behind it the call it will make. -/
theorem forward_spawn (hbody : ∀ call', Fronted F (asks call') (refuses call') [] (T.body call'))
    (hf : Forward F asks refuses asked l c) (call' : Call') :
    Forward F asks refuses asked l
      { c with threads := c.threads ++ [Thread.start T c.state.log.length call'] } where
  sub := hf.sub
  seqLt := hf.seqLt
  own := hf.own
  waits := by
    intro i u hu hnone
    rw [List.getElem?_append] at hu
    split_ifs at hu with hlt
    · exact hf.waits i u hu hnone
    · rcases List.getElem?_eq_some_iff.mp hu with ⟨hone, rfl⟩
      have hi : i = c.threads.length := by
        simp only [List.length_cons, List.length_nil] at hone
        omega
      subst hi
      refine ⟨fun e he htid => ?_, ?_⟩
      · have hlow := hf.tids e (hf.sub.subset he)
        omega
      · have hmine := forward_mine_start hf
        simp only [List.getElem_singleton]
        show Fronted F (asks call') (refuses call') (trace (c.state.mine c.threads.length))
          (T.body call')
        rw [hmine]
        exact hbody call'
  asks := by
    intro i u a hu ha
    rw [List.getElem?_append] at hu
    split_ifs at hu with hlt
    · exact hf.asks i u a hu ha
    · rw [hf.fresh i (Nat.le_of_not_lt hlt)] at ha
      cases ha
  fresh := by
    intro i hi
    refine hf.fresh i ?_
    simp only [List.length_append, List.length_cons, List.length_nil] at hi
    omega
  tids := by
    intro e he
    have hlt := hf.tids e he
    simp only [List.length_append, List.length_cons, List.length_nil]
    omega
  born := by
    intro u hu
    rcases List.mem_append.mp hu with hu | hu
    · exact hf.born u hu
    · rw [List.mem_singleton.mp hu]
      refine ⟨Nat.le_refl _, fun n hn => ?_⟩
      simp only [Thread.start] at hn
      split_ifs at hn
      exact Nat.le_of_eq (Option.some.inj hn).symm

theorem behind_spawn (hchoose : ∀ i, (S.body (choose i)).finished = false)
    (hf : Forward F asks refuses asked l c) (h : Behind F asked choose l c d) (call' : Call') :
    Behind F asked choose l
      { c with threads := c.threads ++ [Thread.start T c.state.log.length call'] }
      { d with threads := d.threads ++
                [Thread.start S d.state.log.length (choose c.threads.length)] } where
  world := h.world
  echo := h.echo
  size := by simp only [List.length_append, h.size, List.length_cons, List.length_nil]
  facing := by
    intro i u t hu ht
    rw [List.getElem?_append] at hu ht
    by_cases hlt : i < c.threads.length
    · rw [if_pos hlt] at hu
      rw [if_pos (by rw [h.size]; exact hlt)] at ht
      exact h.facing i u t hu ht
    · rw [if_neg hlt] at hu
      rw [if_neg (by rw [h.size]; exact hlt), h.size] at ht
      rcases List.getElem?_eq_some_iff.mp hu with ⟨hone, rfl⟩
      rcases List.getElem?_eq_some_iff.mp ht with ⟨_, rfl⟩
      have hi : i = c.threads.length := by
        simp only [List.length_cons, List.length_nil] at hone
        omega
      subst hi
      have hnone := hf.fresh c.threads.length (Nat.le_refl _)
      simp only [List.getElem_singleton]
      exact
        { call := by rw [hnone]; rfl
          alive := rfl
          born := (h.length hf (Nat.le_refl _)).symm
          waits := fun _ => ⟨rfl, if_neg (by rw [hchoose]; exact Bool.false_ne_true)⟩
          serves := fun b hb => by rw [hnone] at hb; cases hb }

section Steps

variable {i : Nat} {u : Thread Op' Res' Err' Out' Call'} {o' : Op'} {ch : Choice} {r : Res' o'}
  {w : World'} {k' : Res' o' → Prog Op' Res' Err' Out'}

/-- The requests that have made their call once thread `i` has. -/
def withAsked (asked : Nat → Option (Asked Op' Res' Err Out Call Err' Out')) (i : Nat)
    (a : Asked Op' Res' Err Out Call Err' Out') :
    Nat → Option (Asked Op' Res' Err Out Call Err' Out') :=
  fun j => if j = i then some a else asked j

theorem trace_push (i j : Nat) (call' : Call') :
    trace ((c.state.push i call' o' ch r w).mine j) =
      if i = j then ⟨o', r⟩ :: trace (c.state.mine j) else trace (c.state.mine j) := by
  by_cases hij : i = j
  · subst hij
    rw [if_pos rfl, State.push_mine]
    rfl
  · rw [if_neg hij, State.push_mine_other _ _ _ _ _ _ _ _ hij]

/-- What no step of another thread changes in front. -/
theorem forward_advance {asked' : Nat → Option (Asked Op' Res' Err Out Call Err' Out')}
    {l' : List (Event Op' Res' Call' Choice World')} (hf : Forward F asks refuses asked l c)
    (hu : c.threads[i]? = some u) (hsub : l'.Sublist (c.advance i u o' ch r w (k' r)).state.log)
    (hown : ∀ e ∈ (c.advance i u o' ch r w (k' r)).state.log, e ∈ l' ∨ F.own e.op)
    (hother : ∀ j, j ≠ i → asked' j = asked j) (hl : ∀ e ∈ l', e ∈ l ∨ e.tid = i)
    (hwaits : asked' i = none → (∀ e ∈ l', e.tid ≠ i) ∧
      Fronted F (asks u.call) (refuses u.call) (⟨o', r⟩ :: trace (c.state.mine i)) (k' r))
    (hasks : ∀ a, asked' i = some a → asks u.call a ∧ a.told <:+ trace (c.state.mine i) ∧
      ∀ x ∈ a.told, F.own x.1) :
    Forward F asks refuses asked' l' (c.advance i u o' ch r w (k' r)) := by
  have hlt := (List.getElem?_eq_some_iff.mp hu).1
  refine ⟨hsub, State.push_seqLt hf.seqLt _ _ _ _ _ _, hown, fun j v hv hnone => ?_,
    fun j v a hv ha => ?_, fun j hj => ?_, fun e he => ?_, fun v hv => ?_⟩
  · show (∀ e ∈ l', e.tid ≠ j) ∧ Fronted F (asks v.call) (refuses v.call)
      (trace ((c.state.push i u.call o' ch r w).mine j)) v.prog
    rw [trace_push]
    by_cases hij : i = j
    · subst hij
      rw [Config.advance, List.getElem?_set_self hlt, Option.some.injEq] at hv
      rw [← hv, if_pos rfl]
      exact hwaits hnone
    · rw [Config.advance, List.getElem?_set_ne hij] at hv
      rw [hother j (Ne.symm hij)] at hnone
      rw [if_neg hij]
      refine ⟨fun e he htid => ?_, (hf.waits j v hv hnone).2⟩
      rcases hl e he with hold | hi
      · exact (hf.waits j v hv hnone).1 e hold htid
      · exact hij (hi.symm.trans htid)
  · show asks v.call a ∧ a.told <:+ trace ((c.state.push i u.call o' ch r w).mine j) ∧
      ∀ x ∈ a.told, F.own x.1
    rw [trace_push]
    by_cases hij : i = j
    · subst hij
      rw [Config.advance, List.getElem?_set_self hlt, Option.some.injEq] at hv
      rw [← hv, if_pos rfl]
      exact ⟨(hasks a ha).1, (hasks a ha).2.1.trans (List.suffix_cons _ _), (hasks a ha).2.2⟩
    · rw [Config.advance, List.getElem?_set_ne hij] at hv
      rw [hother j (Ne.symm hij)] at ha
      rw [if_neg hij]
      exact hf.asks j v a hv ha
  · simp only [Config.advance, List.length_set] at hj
    rw [hother j (by omega)]
    exact hf.fresh j hj
  · simp only [Config.advance, List.length_set]
    rcases List.mem_cons.mp he with rfl | he
    · exact hlt
    · exact hf.tids e he
  · show v.born ≤ c.state.log.length + 1 ∧ ∀ n, v.ended = some n → n ≤ c.state.log.length + 1
    rcases List.mem_or_eq_of_mem_set hv with hv | rfl
    · exact ⟨Nat.le_succ_of_le (hf.born v hv).1,
        fun n hn => Nat.le_succ_of_le ((hf.born v hv).2 n hn)⟩
    · refine ⟨Nat.le_succ_of_le (hf.born u (List.mem_of_getElem? hu)).1, fun n hn => ?_⟩
      simp only [Thread.goOn] at hn
      split_ifs at hn
      exact Nat.le_of_eq (Option.some.inj hn).symm

/-- A request that has not made its call was told nothing but answers to
    operations of its own. -/
theorem forward_told (hf : Forward F asks refuses asked l c) (hu : c.threads[i]? = some u)
    (hnone : asked i = none) : ∀ x ∈ trace (c.state.mine i), F.own x.1 := by
  intro x hx
  rcases List.mem_map.mp hx with ⟨e, he, rfl⟩
  rw [State.mem_mine] at he
  exact (hf.own e he.1).resolve_left fun hl => (hf.waits i u hu hnone).1 e hl he.2

/-- An operation of its own, of a request that has not made its call. -/
theorem forward_own (hf : Forward F asks refuses asked l c) (hu : c.threads[i]? = some u)
    (hnone : asked i = none) (hown : F.own o')
    (hk : Fronted F (asks u.call) (refuses u.call) (⟨o', r⟩ :: trace (c.state.mine i)) (k' r)) :
    Forward F asks refuses asked l (c.advance i u o' ch r w (k' r)) := by
  refine forward_advance hf hu (hf.sub.trans (List.sublist_cons_self _ _)) (fun e he => ?_)
    (fun j _ => rfl) (fun e he => Or.inl he) (fun _ => ⟨(hf.waits i u hu hnone).1, hk⟩)
    (fun a ha => by rw [hnone] at ha; cases ha)
  rcases List.mem_cons.mp he with rfl | he
  · exact Or.inr hown
  · exact hf.own e he

/-- An operation of the call of a request. -/
theorem forward_run {a : Asked Op' Res' Err Out Call Err' Out'}
    (hf : Forward F asks refuses asked l c) (hu : c.threads[i]? = some u) (hasks : asks u.call a)
    (htold : a.told <:+ trace (c.state.mine i)) (hown : ∀ x ∈ a.told, F.own x.1) :
    Forward F asks refuses (withAsked asked i a)
      (⟨c.state.log.length, i, u.call, o', ch, r, w⟩ :: l) (c.advance i u o' ch r w (k' r)) := by
  refine forward_advance hf hu (hf.sub.cons_cons _) (fun e he => ?_)
    (fun j hj => if_neg hj) (fun e he => ?_) (fun hno => ?_) (fun b hb => ?_)
  · rcases List.mem_cons.mp he with rfl | he
    · exact Or.inl List.mem_cons_self
    · exact (hf.own e he).imp_left (List.mem_cons_of_mem _)
  · rcases List.mem_cons.mp he with rfl | he
    · exact Or.inr rfl
    · exact Or.inl he
  · simp only [withAsked, if_true, reduceCtorEq] at hno
  · simp only [withAsked, if_true, Option.some.injEq] at hb
    rw [← hb]
    exact ⟨hasks, htold, hown⟩

/-- Behind such an operation nothing happens. -/
theorem behind_own (h : Behind F asked choose l c d) (hu : c.threads[i]? = some u)
    (hnone : asked i = none) (hview : F.view w = F.view c.state.world) :
    Behind F asked choose l (c.advance i u o' ch r w (k' r)) d where
  world := h.world.trans hview.symm
  echo := h.echo
  size := by simp only [Config.advance, List.length_set, h.size]
  facing := by
    intro j v t hv ht
    by_cases hij : i = j
    · subst hij
      rw [Config.advance, List.getElem?_set_self (List.getElem?_eq_some_iff.mp hu).1,
        Option.some.injEq] at hv
      have hface := h.facing i u t hu ht
      rw [← hv]
      exact
        { call := hface.call
          alive := hface.alive
          born := hface.born
          waits := hface.waits
          serves := fun b hb => by rw [hnone] at hb; cases hb }
    · rw [Config.advance, List.getElem?_set_ne hij] at hv
      exact h.facing j v t hv ht

/-- Behind an operation of a call the thread behind performs it. -/
theorem behind_run {choose' : Nat → Call} {a : Asked Op' Res' Err Out Call Err' Out'}
    {t : Thread Op Res Err Out Call} (hf : Forward F asks refuses asked l c)
    (h : Behind F asked choose' l c d) (hchoose : ∀ j, j ≠ i → choose' j = choose j)
    (hu : c.threads[i]? = some u) (ht : d.threads[i]? = some t) (halive : u.alive = true)
    (hprog : u.prog = .await o' k') (hx : T.exec i o' ch c.state.world = some (r, w))
    (hcall : t.call = a.call) (hserve : u.prog = F.serve a.fin t.prog) :
    ∃ d', d.step S (.run i ch) = some d' ∧ Behind F (withAsked asked i a) choose
      (⟨c.state.log.length, i, u.call, o', ch, r, w⟩ :: l) (c.advance i u o' ch r w (k' r)) d' := by
  have hface := h.facing i u t hu ht
  rcases Front.serve_await (hserve.symm.trans hprog) with ⟨o, k, hp, heq⟩
  cases heq
  have hx' : S.exec i o ch d.state.world = some (F.res o r, F.view w) := by
    rw [h.world]
    exact F.exec i o ch _ r w hx
  have hstep : d.step S (.run i ch) =
      some (d.advance i t o ch (F.res o r) (F.view w) (k (F.res o r))) := by
    simp only [Config.step, ht, hface.alive, halive, hp, hx']
  have hbound := hf.born
  refine ⟨_, hstep, rfl, ?_, ?_, fun j v s hv hs => ?_⟩
  · exact List.Forall₂.cons ⟨rfl, ⟨r, rfl, rfl⟩, rfl, rfl⟩ h.echo
  · simp only [Config.advance, List.length_set, h.size]
  · by_cases hij : i = j
    · subst hij
      rw [Config.advance, List.getElem?_set_self (List.getElem?_eq_some_iff.mp hu).1,
        Option.some.injEq] at hv
      rw [Config.advance, List.getElem?_set_self (List.getElem?_eq_some_iff.mp ht).1,
        Option.some.injEq] at hs
      subst hv
      subst hs
      have hborn := (hf.born u (List.mem_of_getElem? hu)).1
      have hall : before (⟨c.state.log.length, i, u.call, F.op o, ch, r, w⟩ :: l)
          (c.state.log.length + 1) = d.state.log.length + 1 := by
        rw [before_all, List.length_cons, h.echo.length_eq]
        intro e he
        rcases List.mem_cons.mp he with rfl | he
        · exact Nat.lt_succ_self _
        · exact Nat.lt_succ_of_lt (hf.seqLt e (hf.sub.subset he))
      exact
        { call := by simp only [withAsked, if_true, Thread.goOn, hcall, Option.map_some,
            Option.getD_some]
          alive := hface.alive
          born := by
            rw [before_cons (by exact hborn)]
            exact hface.born
          waits := fun hno => by simp only [withAsked, if_true, reduceCtorEq] at hno
          serves := fun b hb => by
            simp only [withAsked, if_true, Option.some.injEq] at hb
            subst hb
            refine ⟨rfl, ?_⟩
            simp only [Thread.goOn, Front.serve_finished]
            split_ifs
            · rw [Option.map_some, hall]
            · rfl }
    · rw [Config.advance, List.getElem?_set_ne hij] at hv hs
      have hold := h.facing j v s hv hs
      have hasked : withAsked asked i a j = asked j := if_neg (Ne.symm hij)
      rw [hasked, ← hchoose j (Ne.symm hij)]
      exact facing_cons hold (hf.born v (List.mem_of_getElem? hv)).1
        (hf.born v (List.mem_of_getElem? hv)).2

end Steps

/-- The view of the world changes, and nothing else. -/
theorem forward_world {w : World'} (hf : Forward F asks refuses asked l c) :
    Forward F asks refuses asked l { c with state := { c.state with world := w } } :=
  { hf with }

theorem behind_world {w : World'} {v : World} (h : Behind F asked choose l c d)
    (hview : v = F.view w) :
    Behind F asked choose l { c with state := { c.state with world := w } }
      { d with state := { d.state with world := v } } :=
  { h with world := hview }

/-- A request that dies, and what is behind it. -/
theorem forward_kill {i : Nat} {u : Thread Op' Res' Err' Out' Call'} {w : World'}
    (hf : Forward F asks refuses asked l c) (hu : c.threads[i]? = some u) :
    Forward F asks refuses asked l
      { state := { c.state with world := w },
        threads := c.threads.set i { u with alive := false } } := by
  -- The thread keeps its call, its program and its times.
  have hset : ∀ {j : Nat} {v : Thread Op' Res' Err' Out' Call'},
      (c.threads.set i { u with alive := false })[j]? = some v →
        ∃ v₀, c.threads[j]? = some v₀ ∧ v.call = v₀.call ∧ v.prog = v₀.prog := by
    intro j v hv
    by_cases hij : i = j
    · subst hij
      rw [List.getElem?_set_self (List.getElem?_eq_some_iff.mp hu).1, Option.some.injEq] at hv
      exact ⟨u, hu, by rw [← hv], by rw [← hv]⟩
    · rw [List.getElem?_set_ne hij] at hv
      exact ⟨v, hv, rfl, rfl⟩
  refine ⟨hf.sub, hf.seqLt, hf.own, fun j v hv hnone => ?_, fun j v a hv ha => ?_, fun j hj => ?_,
    fun e he => ?_, fun v hv => ?_⟩
  · rcases hset hv with ⟨v₀, hv₀, hcall, hprog⟩
    rw [hcall, hprog]
    exact hf.waits j v₀ hv₀ hnone
  · rcases hset hv with ⟨v₀, hv₀, hcall, _⟩
    rw [hcall]
    exact hf.asks j v₀ a hv₀ ha
  · rw [List.length_set] at hj
    exact hf.fresh j hj
  · rw [List.length_set]
    exact hf.tids e he
  · rcases List.mem_or_eq_of_mem_set hv with hv | rfl
    · exact hf.born v hv
    · exact hf.born u (List.mem_of_getElem? hu)

theorem behind_kill {i : Nat} {u : Thread Op' Res' Err' Out' Call'}
    {t : Thread Op Res Err Out Call} {w : World'} {v : World} (h : Behind F asked choose l c d)
    (hu : c.threads[i]? = some u) (ht : d.threads[i]? = some t) (hview : v = F.view w) :
    Behind F asked choose l
      { state := { c.state with world := w },
        threads := c.threads.set i { u with alive := false } }
      { state := { d.state with world := v },
        threads := d.threads.set i { t with alive := false } } where
  world := hview
  echo := h.echo
  size := by simp only [List.length_set, h.size]
  facing := by
    intro j x y hx hy
    by_cases hij : i = j
    · subst hij
      rw [List.getElem?_set_self (List.getElem?_eq_some_iff.mp hu).1, Option.some.injEq] at hx
      rw [List.getElem?_set_self (List.getElem?_eq_some_iff.mp ht).1, Option.some.injEq] at hy
      have hface := h.facing i u t hu ht
      rw [← hx, ← hy]
      exact ⟨hface.call, rfl, hface.born, hface.waits, hface.serves⟩
    · rw [List.getElem?_set_ne hij] at hx hy
      exact h.facing j x y hx hy

/-- The thread behind has ended only if the one in front has. -/
theorem Facing.finished {a : Option (Asked Op' Res' Err Out Call Err' Out')} {call : Call}
    {u : Thread Op' Res' Err' Out' Call'} {t : Thread Op Res Err Out Call}
    (h : Facing F l a call u t) (hcall : (S.body call).finished = false)
    (hu : u.prog.finished = false) : t.prog.finished = false := by
  cases a with
  | none =>
      rw [(h.waits rfl).1, h.call]
      exact hcall
  | some b =>
      rw [(h.serves b rfl).1, Front.serve_finished] at hu
      exact hu

/-- Some step of a request, and what happens behind it: nothing before its call
    is made, and the step of the thread behind from then on. -/
theorem exists_behind_run {i : Nat} {ch : Choice} {w₀ : World}
    {c' : Config Op' Res' Err' Out' Call' Choice World'} (hf : Forward F asks refuses asked l c)
    (hbehind : ∀ choose : Nat → Call, (∀ j, (S.body (choose j)).finished = false) →
      ∃ d, Run S Policy.free w₀ d ∧ Behind F asked choose l c d)
    (hs : c.step T (.run i ch) = some c') :
    ∃ asked' l', Forward F asks refuses asked' l' c' ∧
      ∀ choose : Nat → Call, (∀ j, (S.body (choose j)).finished = false) →
        ∃ d, Run S Policy.free w₀ d ∧ Behind F asked' choose l' c' d := by
  rcases step_run_inv hs with ⟨u, o', k', r, w, hu, halive, hprog, hx, rfl⟩
  -- A request that has asked for a call goes on with it.
  have hgo : ∀ a : Asked Op' Res' Err Out Call Err' Out', asks u.call a →
      a.told <:+ trace (c.state.mine i) → (∀ x ∈ a.told, F.own x.1) →
      (∀ choose : Nat → Call, (∀ j, (S.body (choose j)).finished = false) →
        ∃ choose' d t, (∀ j, j ≠ i → choose' j = choose j) ∧ Run S Policy.free w₀ d ∧
          Behind F asked choose' l c d ∧ d.threads[i]? = some t ∧ t.call = a.call ∧
            u.prog = F.serve a.fin t.prog) →
      ∃ asked' l', Forward F asks refuses asked' l' (c.advance i u o' ch r w (k' r)) ∧
        ∀ choose : Nat → Call, (∀ j, (S.body (choose j)).finished = false) →
          ∃ d, Run S Policy.free w₀ d ∧
            Behind F asked' choose l' (c.advance i u o' ch r w (k' r)) d := by
    intro a hasks htold hown hd
    refine ⟨_, _, forward_run hf hu hasks htold hown, fun choose hchoose => ?_⟩
    rcases hd choose hchoose with ⟨choose', d, t, hsame, hrun, hb, ht, hcall, hserve⟩
    rcases behind_run hf hb hsame hu ht halive hprog hx hcall hserve with ⟨d', hstep, hb'⟩
    exact ⟨d', Run.step d d' (.run i ch) hrun (fun _ _ _ _ _ => trivial) hstep, hb'⟩
  cases hasked : asked i with
  | some a =>
      rcases hf.asks i u a hu hasked with ⟨hasks, htold, hown⟩
      refine hgo a hasks htold hown fun choose hchoose => ?_
      rcases hbehind choose hchoose with ⟨d, hrun, hb⟩
      rcases hb.thread hu with ⟨t, ht, hface⟩
      refine ⟨choose, d, t, fun _ _ => rfl, hrun, hb, ht, ?_, (hface.serves a hasked).1⟩
      rw [hface.call, hasked]
      rfl
  | none =>
      rcases hf.waits i u hu hasked with ⟨_, hfront⟩
      generalize htr : trace (c.state.mine i) = told at hfront
      generalize hp : u.prog = p at hfront
      rw [hprog] at hp
      cases hfront with
      | refused _ res _ =>
          have hfin := congrArg Prog.finished hp
          rw [ended_finished] at hfin
          cases hfin
      | own _ o k hown hk =>
          cases hp
          refine ⟨asked, l, forward_own hf hu hasked hown (htr ▸ hk r ⟨i, ch, _, w, hx⟩),
            fun choose hchoose => ?_⟩
          rcases hbehind choose hchoose with ⟨d, hrun, hb⟩
          exact ⟨d, hrun, behind_own hb hu hasked (F.quiet i _ ch _ r w hown hx)⟩
      | served a hasks hbody =>
          -- It is this call the thread behind has to have been given.
          refine hgo a hasks (htr ▸ List.suffix_refl _) (htr ▸ forward_told hf hu hasked)
            fun choose hchoose => ?_
          rcases hbehind (fun j => if j = i then a.call else choose j) (fun j => by
            by_cases hj : j = i
            · rw [if_pos hj]
              exact hbody
            · rw [if_neg hj]
              exact hchoose j) with ⟨d, hrun, hb⟩
          rcases hb.thread hu with ⟨t, ht, hface⟩
          have hcall : t.call = a.call := by
            rw [hface.call, hasked]
            exact if_pos rfl
          refine ⟨_, d, t, fun j hj => if_neg hj, hrun, hb, ht, hcall, ?_⟩
          rw [(hface.waits hasked).1, hcall, hprog, hp]

/-- Every run in front is a run behind. Induction on the run; the calls that the
    requests will make are given to the threads behind when they start. -/
theorem exists_behind {π : Policy Op' Res' Call' Choice World'} {w₀ : World'}
    (hbody : ∀ call', Fronted F (asks call') (refuses call') [] (T.body call'))
    (hc : Run T π w₀ c) :
    ∃ asked l, Forward F asks refuses asked l c ∧
      ∀ choose : Nat → Call, (∀ i, (S.body (choose i)).finished = false) →
        ∃ d, Run S Policy.free (F.view w₀) d ∧ Behind F asked choose l c d := by
  induction hc with
  | start =>
      refine ⟨fun _ => none, [], ⟨List.Sublist.refl _, fun e he => (by cases he),
        fun e he => (by cases he), fun i u hu => (by simp [Config.init] at hu),
        fun i u a hu => (by simp [Config.init] at hu), fun _ _ => rfl, fun e he => (by cases he),
        fun u hu => (by cases hu)⟩, fun choose _ => ⟨Config.init (F.view w₀), Run.start, rfl,
        List.Forall₂.nil, rfl, fun i u t hu => by simp [Config.init] at hu⟩⟩
  | step c c' a hrun hp hs ih =>
      rcases ih with ⟨asked, l, hf, hbehind⟩
      cases a with
      | spawn call' =>
          simp only [Config.step, Option.some.injEq] at hs
          subst hs
          refine ⟨asked, l, forward_spawn hbody hf call', fun choose hchoose => ?_⟩
          rcases hbehind choose hchoose with ⟨d, hd, hb⟩
          exact ⟨_, Run.step d _ (.spawn (choose c.threads.length)) hd trivial rfl,
            behind_spawn hchoose hf hb call'⟩
      | run i ch => exact exists_behind_run hf hbehind hs
      | env e =>
          rcases step_env_inv hs with ⟨w, hw, rfl⟩
          refine ⟨asked, l, forward_world hf, fun choose hchoose => ?_⟩
          rcases hbehind choose hchoose with ⟨d, hd, hb⟩
          rcases F.env e _ w hw with hsame | ⟨e', he'⟩
          · exact ⟨d, hd, behind_world hb (hb.world.trans hsame.symm)⟩
          · rw [← hb.world] at he'
            refine ⟨_, Run.step d _ (.env e') hd trivial ?_, behind_world hb rfl⟩
            simp only [Config.step, he']
      | kill i =>
          rcases step_kill_inv hs with ⟨u, hu, hfin, rfl⟩
          refine ⟨asked, l, forward_kill hf hu, fun choose hchoose => ?_⟩
          rcases hbehind choose hchoose with ⟨d, hd, hb⟩
          rcases hb.thread hu with ⟨t, ht, hface⟩
          have hdead := hface.finished (hchoose i) hfin
          have hview : S.reap i d.state.world = F.view (T.reap i c.state.world) := by
            rw [F.reap, hb.world]
          refine ⟨_, Run.step d _ (.kill i) hd trivial ?_, behind_kill hb hu ht hview⟩
          simp only [Config.step, ht, hdead, Bool.false_eq_true, if_false]

end Refinement

end Async
