import Mathlib.Logic.Basic

/-!
# Programs that ask their environment

A program is a tree: it ends with a value, or asks a question and goes on with the answer. Its
surroundings may answer differently each time, so other programs may act between two questions.
-/

namespace Signer

inductive Program (Q : Type) (A : Q → Type) (α : Type) where
  | done (a : α)
  | ask (q : Q) (next : A q → Program Q A α)

namespace Program

variable {Q : Type} {A : Q → Type} {α β : Type}

abbrev Event (Q : Type) (A : Q → Type) : Type := (q : Q) × A q

/-- Run a program, then what `f` makes of its value. -/
def bind : Program Q A α → (α → Program Q A β) → Program Q A β
  | done a, f => f a
  | ask q next, f => ask q fun r => (next r).bind f

instance : Monad (Program Q A) where
  pure := done
  bind := Program.bind

theorem bind_done (p : Program Q A α) : p >>= pure = p := by
  induction p with
  | done a => rfl
  | ask q next ih => exact congrArg (ask q) (funext ih)

theorem bind_bind {γ : Type} (p : Program Q A α) (f : α → Program Q A β) (g : β → Program Q A γ) :
    p >>= f >>= g = p >>= fun a => f a >>= g := by
  induction p with
  | done a => rfl
  | ask q next ih => exact congrArg (ask q) (funext ih)

def query (q : Q) : Program Q A (A q) := ask q done

/-- Runs a program against an environment that sees all that was asked before. -/
def exec (env : List (Event Q A) → (q : Q) → A q) :
    Program Q A α → List (Event Q A) → List (Event Q A) × α
  | done a, past => (past, a)
  | ask q next, past => exec env (next (env past q)) (past ++ [⟨q, env past q⟩])

@[simp]
theorem exec_pure (env : List (Event Q A) → (q : Q) → A q) (a : α) (past : List (Event Q A)) :
    (pure a : Program Q A α).exec env past = (past, a) :=
  rfl

@[simp]
theorem exec_query (env : List (Event Q A) → (q : Q) → A q) (q : Q) (past : List (Event Q A)) :
    (query q).exec env past = (past ++ [⟨q, env past q⟩], env past q) :=
  rfl

theorem exec_bind (env : List (Event Q A) → (q : Q) → A q) (p : Program Q A α)
    (f : α → Program Q A β) (past : List (Event Q A)) :
    (p >>= f).exec env past = (f (p.exec env past).2).exec env (p.exec env past).1 := by
  induction p generalizing past with
  | done a => rfl
  | ask q next ih => exact ih _ _

/-- Along every sequence of answers each question is allowed where it is asked, and the
postcondition holds at the end. -/
def Follows (allowed : List (Event Q A) → Q → Prop) :
    Program Q A α → List (Event Q A) → (List (Event Q A) → α → Prop) → Prop
  | done a, past, post => post past a
  | ask q next, past, post =>
    allowed past q ∧ ∀ r, Follows allowed (next r) (past ++ [⟨q, r⟩]) post

variable {allowed : List (Event Q A) → Q → Prop} {past : List (Event Q A)}

@[simp]
theorem follows_pure {a : α} {post : List (Event Q A) → α → Prop} :
    Follows allowed (pure a : Program Q A α) past post ↔ post past a :=
  Iff.rfl

@[simp]
theorem follows_query {q : Q} {post : List (Event Q A) → A q → Prop} :
    Follows allowed (query q) past post ↔
      allowed past q ∧ ∀ r, post (past ++ [⟨q, r⟩]) r :=
  Iff.rfl

variable {p : Program Q A α} {f : α → Program Q A β}

@[simp]
theorem follows_bind
    {post : List (Event Q A) → β → Prop} :
    Follows allowed (p >>= f) past post ↔
      Follows allowed p past fun past a => Follows allowed (f a) past post := by
  induction p generalizing past with
  | done a => rfl
  | ask q next ih => exact and_congr_right fun _ => forall_congr' fun r => ih r

theorem Follows.mono {post post' : List (Event Q A) → α → Prop}
    (h : Follows allowed p past post) (hpost : ∀ past a, post past a → post' past a) :
    Follows allowed p past post' := by
  induction p generalizing past with
  | done a => exact hpost _ _ h
  | ask q next ih => exact ⟨h.1, fun r => ih r (h.2 r)⟩

theorem Follows.grows {post : List (Event Q A) → α → Prop}
    (h : Follows allowed p past post) :
    Follows allowed p past fun now a => past <+: now ∧ post now a := by
  induction p generalizing past with
  | done a => exact ⟨List.prefix_rfl, h⟩
  | ask q next ih =>
    refine ⟨h.1, fun r => (ih r (h.2 r)).mono fun now a hnow => ?_⟩
    exact ⟨(List.prefix_append past _).trans hnow.1, hnow.2⟩

theorem follows_true (hallowed : ∀ past q, allowed past q) (p : Program Q A α) :
    Follows allowed p past fun _ _ => True := by
  induction p generalizing past with
  | done a => exact True.intro
  | ask q next ih => exact ⟨hallowed past q, fun r => ih r⟩

theorem Follows.exec {post : List (Event Q A) → α → Prop}
    (h : Follows allowed p past post) (env : List (Event Q A) → (q : Q) → A q) :
    post (p.exec env past).1 (p.exec env past).2 := by
  induction p generalizing past with
  | done a => exact h
  | ask q next ih => exact ih (env past q) (h.2 _)

/-! ### Questions that are permitted anywhere -/

/-- Along every possible sequence of answers the questions are permitted ones, and the postcondition
holds at the end. -/
def Obeys (possible : (q : Q) → A q → Prop) (permitted : Q → Prop) :
    Program Q A α → (α → Prop) → Prop
  | done a, post => post a
  | ask q next, post => permitted q ∧ ∀ r, possible q r → Obeys possible permitted (next r) post

section

variable {possible : (q : Q) → A q → Prop} {permitted : Q → Prop}

@[simp]
theorem obeys_pure {a : α} {post : α → Prop} :
    Obeys possible permitted (pure a : Program Q A α) post ↔ post a :=
  Iff.rfl

@[simp]
theorem obeys_query {q : Q} {post : A q → Prop} :
    Obeys possible permitted (query q) post ↔ permitted q ∧ ∀ r, possible q r → post r :=
  Iff.rfl

@[simp]
theorem obeys_bind {post : β → Prop} :
    Obeys possible permitted (p >>= f) post ↔
      Obeys possible permitted p fun a => Obeys possible permitted (f a) post := by
  induction p with
  | done a => rfl
  | ask q next ih =>
    exact and_congr_right fun _ => forall_congr' fun r => imp_congr_right fun _ => ih r

theorem Obeys.mono {post post' : α → Prop}
    (h : Obeys possible permitted p post) (hpost : ∀ a, post a → post' a) :
    Obeys possible permitted p post' := by
  induction p with
  | done a => exact hpost a h
  | ask q next ih => exact ⟨h.1, fun r hr => ih r (h.2 r hr)⟩

theorem Obeys.andThen {post : β → Prop}
    (h : Obeys possible permitted p fun _ => True)
    (hf : ∀ a, Obeys possible permitted (f a) post) : Obeys possible permitted (p >>= f) post :=
  obeys_bind.mpr (h.mono fun a _ => hf a)

theorem Obeys.ask {q : Q} {f : A q → Program Q A β} {post : β → Prop} (hq : permitted q)
    (hf : ∀ r, Obeys possible permitted (f r) post) :
    Obeys possible permitted (query q >>= f) post :=
  obeys_bind.mpr ⟨hq, fun r _ => hf r⟩

variable {env : List (Event Q A) → (q : Q) → A q}

theorem Obeys.exec {post : α → Prop} (h : Obeys possible permitted p post)
    (henv : ∀ past q, possible q (env past q))
    {e : Event Q A} (he : e ∈ (p.exec env past).1) : e ∈ past ∨ permitted e.1 := by
  induction p generalizing past with
  | done a => exact .inl he
  | ask q next ih =>
    rcases ih _ (h.2 _ (henv past q)) he with hpast | hpermitted
    · rcases List.mem_append.mp hpast with hpast | hnew
      · exact .inl hpast
      · obtain rfl := List.mem_singleton.mp hnew
        exact .inr h.1
    · exact .inr hpermitted

theorem Obeys.result {post : α → Prop} (h : Obeys possible permitted p post)
    (henv : ∀ past q, possible q (env past q)) :
    post (p.exec env past).2 := by
  induction p generalizing past with
  | done a => exact h
  | ask q next ih => exact ih _ (h.2 _ (henv past q))

end

/-! ### Programs that answer the questions of others -/

section

variable {Q' : Type} {A' : Q' → Type} {possible : (q : Q') → A' q → Prop} {permitted : Q' → Prop}

def interp (answer : (q : Q) → Program Q' A' (A q)) : Program Q A α → Program Q' A' α
  | done a => done a
  | ask q next => answer q >>= fun r => interp answer (next r)

@[simp]
theorem interp_pure (answer : (q : Q) → Program Q' A' (A q)) (a : α) :
    (pure a : Program Q A α).interp answer = pure a :=
  rfl

theorem interp_bind (answer : (q : Q) → Program Q' A' (A q)) (p : Program Q A α)
    (f : α → Program Q A β) :
    (p >>= f).interp answer = p.interp answer >>= fun a => (f a).interp answer := by
  induction p with
  | done a => rfl
  | ask q next ih =>
    refine Eq.trans ?_ (bind_bind ..).symm
    exact congrArg (answer q >>= ·) (funext ih)

@[simp]
theorem interp_query (answer : (q : Q) → Program Q' A' (A q)) (q : Q) :
    (query q).interp answer = answer q :=
  bind_done _

theorem Obeys.interp {asked : Q → Prop} {answer : (q : Q) → Program Q' A' (A q)} {post : α → Prop}
    (h : Obeys (fun _ _ => True) asked p post)
    (hanswer : ∀ q, asked q → Obeys possible permitted (answer q) fun _ => True) :
    Obeys possible permitted (p.interp answer) post := by
  induction p with
  | done a => exact h
  | ask q next ih =>
    exact (hanswer q h.1).andThen fun r => ih r (h.2 r trivial)

end

end Program

/-! ### Programs that may fail -/

abbrev Attempt (Q : Type) (A : Q → Type) (ε : Type) : Type → Type := ExceptT ε (Program Q A)

namespace Attempt

variable {Q : Type} {A : Q → Type} {ε α β : Type}

def query (q : Q) : Attempt Q A ε (A q) := ExceptT.mk (Program.query q >>= fun r => pure (.ok r))

def ofOption (o : Option α) (e : ε) : Attempt Q A ε α :=
  match o with
  | some a => pure a
  | none => throw e

def ensure (p : Prop) [Decidable p] (e : ε) : Attempt Q A ε Unit := if p then pure () else throw e

/-- `Program.Obeys`, with a postcondition on the value if there is one. -/
def Obeys (possible : (q : Q) → A q → Prop) (permitted : Q → Prop) (p : Attempt Q A ε α)
    (post : α → Prop) : Prop :=
  Program.Obeys possible permitted p.run fun r => ∀ a, r = .ok a → post a

variable {possible : (q : Q) → A q → Prop} {permitted : Q → Prop}

@[simp]
theorem obeys_pure {a : α} {post : α → Prop} :
    Obeys possible permitted (pure a : Attempt Q A ε α) post ↔ post a := by
  simp [Obeys]

@[simp]
theorem obeys_throw {e : ε} {post : α → Prop} :
    Obeys possible permitted (throw e : Attempt Q A ε α) post := by
  simp [Obeys]

@[simp]
theorem obeys_query {q : Q} {post : A q → Prop} :
    Obeys possible permitted (query q : Attempt Q A ε (A q)) post ↔
      permitted q ∧ ∀ r, possible q r → post r := by
  simp [Obeys, query]

variable {p : Attempt Q A ε α} {f : α → Attempt Q A ε β}

@[simp]
theorem obeys_bind {post : β → Prop} :
    Obeys possible permitted (p >>= f) post ↔
      Obeys possible permitted p fun a => Obeys possible permitted (f a) post := by
  simp only [Obeys, ExceptT.run_bind, Program.obeys_bind]
  refine ⟨fun h => h.mono fun r hr a hra => ?_, fun h => h.mono fun r hr => ?_⟩
  · simpa [hra] using hr
  · cases r with
    | error e => simp
    | ok a => exact hr a rfl

@[simp]
theorem obeys_ofOption {o : Option α} {e : ε} {post : α → Prop} :
    Obeys possible permitted (ofOption o e : Attempt Q A ε α) post ↔ ∀ a, o = some a → post a := by
  cases o <;> simp [ofOption]

@[simp]
theorem obeys_ensure {p : Prop} [Decidable p] {e : ε} {post : Unit → Prop} :
    Obeys possible permitted (ensure p e : Attempt Q A ε Unit) post ↔ (p → post ()) := by
  by_cases hp : p <;> simp [ensure, hp]

theorem Obeys.mono {post post' : α → Prop}
    (h : Obeys possible permitted p post) (hpost : ∀ a, post a → post' a) :
    Obeys possible permitted p post' :=
  Program.Obeys.mono h fun _ hr a hra => hpost a (hr a hra)

theorem Obeys.andThen {post : β → Prop}
    (h : Obeys possible permitted p fun _ => True)
    (hf : ∀ a, Obeys possible permitted (f a) post) : Obeys possible permitted (p >>= f) post :=
  obeys_bind.mpr (h.mono fun a _ => hf a)

theorem Obeys.run {post : α → Prop} (h : Obeys possible permitted p post) :
    Program.Obeys possible permitted p.run fun _ => True :=
  Program.Obeys.mono h fun _ _ => trivial

end Attempt

end Signer
