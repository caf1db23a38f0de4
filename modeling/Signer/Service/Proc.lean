import Mathlib.Logic.Unique

/-!
# Procedures that may refuse

A request handler reads and updates a state, stops at the first refusal, and leaves a trace of the
operations it performed. `Proc` is the monad of such handlers. Proofs never unfold it: each
combinator has a lemma for each of `Returns`, `Keeps` and `Silent`.
-/

namespace Signer

variable {σ τ ε ε' α β : Type}

variable {e : ε} {a : α} {x : Except ε α} {c : Prop}

@[simp]
theorem ite_error_eq_ok [Decidable c] :
    (if c then .error e else x) = .ok a ↔ ¬ c ∧ x = .ok a := by
  by_cases hc : c <;> simp [hc]

variable {f : ε → ε'}

@[simp]
theorem mapError_ok : (Except.ok a).mapError f = .ok a := rfl

@[simp]
theorem mapError_error :
    (Except.error e : Except ε α).mapError f = .error (f e) := rfl

@[simp]
theorem mapError_eq_ok :
    x.mapError f = .ok a ↔ x = .ok a := by
  cases x <;> simp

theorem forM_eq_ok_iff {f : α → Except ε Unit} {l : List α} :
    l.forM f = .ok () ↔ ∀ a ∈ l, f a = .ok () := by
  induction l with
  | nil => simp [List.forM, pure, Except.pure]
  | cons a l ih =>
    rw [List.forM, List.forall_mem_cons, ← ih]
    cases f a <;> simp [bind, Except.bind]

structure Outcome (σ τ ε α : Type) where
  result : Except ε α
  state : σ
  trace : List τ

structure Proc (σ τ ε α : Type) where
  run : σ → Outcome σ τ ε α

namespace Proc

/-- Run `p`, then what `f` makes of its value; a refusal of `p` is final. -/
def bind (p : Proc σ τ ε α) (f : α → Proc σ τ ε β) : Proc σ τ ε β where
  run s :=
    match p.run s with
    | ⟨.error e, s₁, t₁⟩ => ⟨.error e, s₁, t₁⟩
    | ⟨.ok a, s₁, t₁⟩ =>
      let rest := (f a).run s₁
      ⟨rest.result, rest.state, t₁ ++ rest.trace⟩

instance : Monad (Proc σ τ ε) where
  pure a := ⟨fun s => ⟨.ok a, s, []⟩⟩
  bind := Proc.bind

theorem ext_run {p q : Proc σ τ ε α} (h : ∀ s, p.run s = q.run s) : p = q := by
  cases p
  cases q
  exact congrArg Proc.mk (funext h)

theorem bind_bind {γ : Type} (p : Proc σ τ ε α) (f : α → Proc σ τ ε β) (g : β → Proc σ τ ε γ) :
    p >>= f >>= g = p >>= fun a => f a >>= g := by
  refine ext_run fun s => ?_
  simp only [Bind.bind, Proc.bind]
  rcases p.run s with ⟨e | a, s₁, t₁⟩
  · rfl
  · rcases h : (f a).run s₁ with ⟨e | b, s₂, t₂⟩ <;> simp [h, List.append_assoc]

theorem pure_bind_eq (a : α) (f : α → Proc σ τ ε β) : (pure a >>= f : Proc σ τ ε β) = f a := rfl

def refuse (e : ε) : Proc σ τ ε α := ⟨fun s => ⟨.error e, s, []⟩⟩

def ofExcept (x : Except ε α) : Proc σ τ ε α := ⟨fun s => ⟨x, s, []⟩⟩

/-- Go on only if `c` holds. -/
def ensure (c : Prop) [Decidable c] (e : ε) : Proc σ τ ε Unit :=
  ofExcept (if c then .ok () else .error e)

def ofOption (o : Option α) (e : ε) : Proc σ τ ε α :=
  ofExcept (match o with
    | some a => .ok a
    | none => .error e)

def perform (op : τ) : Proc σ τ ε Unit := ⟨fun s => ⟨.ok (), s, [op]⟩⟩

def read (f : σ → α) : Proc σ τ ε α := ⟨fun s => ⟨.ok (f s), s, []⟩⟩

def update (f : σ → Except ε α × σ) : Proc σ τ ε α := ⟨fun s => ⟨(f s).1, (f s).2, []⟩⟩

def mapError (g : ε → ε') (p : Proc σ τ ε α) : Proc σ τ ε' α where
  run s :=
    match p.run s with
    | ⟨.error e, s₁, t₁⟩ => ⟨.error (g e), s₁, t₁⟩
    | ⟨.ok a, s₁, t₁⟩ => ⟨.ok a, s₁, t₁⟩

/-! ### Executing a step -/

variable {g : Unit → Proc σ τ ε β} {o : Option α}

section

variable {f : α → Proc σ τ ε β} {s : σ}

theorem ofOption_some_bind : (ofOption (some a) e >>= f : Proc σ τ ε β) = f a := rfl

theorem ofExcept_ok_bind : (ofExcept (.ok a) >>= f : Proc σ τ ε β) = f a := rfl

theorem run_ofOption_bind :
    (ofOption o e >>= f).run s = o.elim ⟨.error e, s, []⟩ fun a => (f a).run s := by
  cases o <;> rfl

theorem run_ensure_bind [Decidable c] :
    (ensure c e >>= g).run s = if c then (g ()).run s else ⟨.error e, s, []⟩ := by
  by_cases hc : c
  · rw [ensure, if_pos hc, if_pos hc]
    rfl
  · rw [ensure, if_neg hc, if_neg hc]
    rfl

theorem run_update_bind {g : σ → α} {h : σ → σ} :
    (update (fun s => (.ok (g s), h s)) >>= f).run s = (f (g s)).run (h s) := by
  simp [Bind.bind, Proc.bind, update]

theorem run_read_bind {g : σ → α} : (read g >>= f).run s = (f (g s)).run s := rfl

variable {p : Proc σ τ ε α}

theorem result_bind :
    ((p >>= f).run s).result = (p.run s).result.bind fun a =>
      ((f a).run (p.run s).state).result := by
  simp only [Bind.bind, Proc.bind]
  rcases p.run s with ⟨e | a, s₁, t₁⟩ <;> rfl

@[simp]
theorem run_mapError_state {g : ε → ε'} :
    ((p.mapError g).run s).state = (p.run s).state := by
  simp only [mapError]
  split <;> simp_all

@[simp]
theorem run_mapError_trace {g : ε → ε'} :
    ((p.mapError g).run s).trace = (p.run s).trace := by
  simp only [mapError]
  split <;> simp_all

end

/-! ### Successful executions -/

/-- `p` succeeds from `s` with value `a`, leaving state `s'` and trace `t`. -/
def Returns (p : Proc σ τ ε α) (s : σ) (a : α) (s' : σ) (t : List τ) : Prop :=
  p.run s = ⟨.ok a, s', t⟩

variable {p : Proc σ τ ε α} {f : α → Proc σ τ ε β} {s s' : σ} {t : List τ}

theorem Returns.unique {a b : α} {s₁ s₂ : σ} {t₁ t₂ : List τ}
    (ha : p.Returns s a s₁ t₁) (hb : p.Returns s b s₂ t₂) : a = b ∧ s₁ = s₂ ∧ t₁ = t₂ := by
  have h := ha.symm.trans hb
  simpa only [Outcome.mk.injEq, Except.ok.injEq] using h

@[simp]
theorem returns_pure {a b : α} :
    (pure a : Proc σ τ ε α).Returns s b s' t ↔ b = a ∧ s' = s ∧ t = [] := by
  simp only [Returns, pure, Outcome.mk.injEq, Except.ok.injEq]
  exact ⟨fun h => ⟨h.1.symm, h.2.1.symm, h.2.2.symm⟩, fun h => ⟨h.1.symm, h.2.1.symm, h.2.2.symm⟩⟩

variable {b : β}

theorem returns_bind :
    (p >>= f).Returns s b s' t ↔
      ∃ a s₁ t₁ t₂, p.Returns s a s₁ t₁ ∧ (f a).Returns s₁ b s' t₂ ∧ t = t₁ ++ t₂ := by
  simp only [Returns, Bind.bind, Proc.bind]
  rcases p.run s with ⟨e | a, s₁, t₁⟩
  · simp
  · constructor
    · intro h
      simp only [Outcome.mk.injEq] at h
      obtain ⟨hr, hs, ht⟩ := h
      exact ⟨a, s₁, t₁, ((f a).run s₁).trace, rfl, by rw [← hr, ← hs], ht.symm⟩
    · rintro ⟨a', s₂, t₂, t₃, hp, hf, rfl⟩
      simp only [Outcome.mk.injEq, Except.ok.injEq] at hp
      obtain ⟨rfl, rfl, rfl⟩ := hp
      simp [hf]

@[simp]
theorem returns_refuse :
    ¬ (refuse e : Proc σ τ ε α).Returns s a s' t := by
  simp [Returns, refuse]

@[simp]
theorem returns_ofExcept :
    (ofExcept x : Proc σ τ ε α).Returns s a s' t ↔ x = .ok a ∧ s' = s ∧ t = [] := by
  simp only [Returns, ofExcept, Outcome.mk.injEq]
  exact ⟨fun h => ⟨h.1, h.2.1.symm, h.2.2.symm⟩, fun h => ⟨h.1, h.2.1.symm, h.2.2.symm⟩⟩

@[simp]
theorem returns_ensure [Decidable c] {u : Unit} :
    (ensure c e : Proc σ τ ε Unit).Returns s u s' t ↔ c ∧ s' = s ∧ t = [] := by
  by_cases hc : c <;> simp [ensure, hc]

@[simp]
theorem returns_ofOption :
    (ofOption o e : Proc σ τ ε α).Returns s a s' t ↔ o = some a ∧ s' = s ∧ t = [] := by
  cases o <;> simp [ofOption]

variable {op : τ}

@[simp]
theorem returns_perform {u : Unit} :
    (perform op : Proc σ τ ε Unit).Returns s u s' t ↔ s' = s ∧ t = [op] := by
  simp only [Returns, perform, Outcome.mk.injEq, true_and]
  exact ⟨fun h => ⟨h.1.symm, h.2.symm⟩, fun h => ⟨h.1.symm, h.2.symm⟩⟩

@[simp]
theorem returns_update {g : σ → Except ε α × σ} :
    (update g : Proc σ τ ε α).Returns s a s' t ↔ g s = (.ok a, s') ∧ t = [] := by
  simp only [Returns, update, Outcome.mk.injEq, Prod.ext_iff]
  exact ⟨fun h => ⟨⟨h.1, h.2.1⟩, h.2.2.symm⟩, fun h => ⟨h.1.1, h.1.2, h.2.symm⟩⟩

@[simp]
theorem returns_mapError {g : ε → ε'} :
    (p.mapError g).Returns s a s' t ↔ p.Returns s a s' t := by
  simp only [Returns, mapError]
  rcases p.run s with ⟨e | b, s₁, t₁⟩ <;> simp

/-! Most steps of a handler neither touch the state nor leave a trace. Peeling one off a
bind needs no intermediate state. -/

@[simp]
theorem returns_ofExcept_bind :
    (ofExcept x >>= f).Returns s b s' t ↔ ∃ a, x = .ok a ∧ (f a).Returns s b s' t := by
  simp [returns_bind, and_assoc]

@[simp]
theorem returns_ensure_bind [Decidable c] :
    (ensure c e >>= g).Returns s b s' t ↔ c ∧ (g ()).Returns s b s' t := by
  simp [returns_bind, and_assoc, Unique.exists_iff]

@[simp]
theorem returns_ofOption_bind :
    (ofOption o e >>= f).Returns s b s' t ↔ ∃ a, o = some a ∧ (f a).Returns s b s' t := by
  simp [returns_bind, and_assoc]

@[simp]
theorem returns_perform_bind :
    (perform op >>= g).Returns s b s' t ↔ ∃ t', (g ()).Returns s b s' t' ∧ t = op :: t' := by
  simp [returns_bind, and_assoc, Unique.exists_iff]

@[simp]
theorem returns_update_bind {g : σ → Except ε α × σ} :
    (update g >>= f).Returns s b s' t ↔
      ∃ a s₁, g s = (.ok a, s₁) ∧ (f a).Returns s₁ b s' t := by
  simp [returns_bind, and_assoc]

theorem exists_returns_of_run {P : List τ → Prop}
    (h : (p.run s).result.isOk = true ∧ P (p.run s).trace) :
    ∃ a s' t, p.Returns s a s' t ∧ P t := by
  obtain ⟨hok, htrace⟩ := h
  rcases hp : p.run s with ⟨e | a, s₁, t₁⟩
  · simp [hp, Except.isOk, Except.toBool] at hok
  · exact ⟨a, s₁, t₁, hp, by rwa [hp] at htrace⟩

/-! ### What every execution keeps -/

/-- Every execution of `p`, successful or refused, keeps the invariant `I`. -/
def Keeps (I : σ → Prop) (p : Proc σ τ ε α) : Prop := ∀ s, I s → I (p.run s).state

variable {I : σ → Prop}

theorem Keeps.returns (hp : p.Keeps I) (hs : I s) (h : p.Returns s a s' t) : I s' := by
  have hs' := hp s hs
  rwa [h] at hs'

@[simp]
theorem keeps_pure (a : α) : (pure a : Proc σ τ ε α).Keeps I := fun _ hs => hs

theorem keeps_bind (hp : p.Keeps I) (hf : ∀ a, (f a).Keeps I) : (p >>= f).Keeps I := by
  intro s hs
  have hps := hp s hs
  simp only [Bind.bind, Proc.bind]
  rcases h : p.run s with ⟨e | a, s₁, t₁⟩
  · simpa [h] using hps
  · rw [h] at hps
    exact hf a s₁ hps

@[simp]
theorem keeps_refuse (e : ε) : (refuse e : Proc σ τ ε α).Keeps I := fun _ hs => hs

@[simp]
theorem keeps_ofExcept (x : Except ε α) : (ofExcept x : Proc σ τ ε α).Keeps I := fun _ hs => hs

@[simp]
theorem keeps_ofOption (o : Option α) (e : ε) : (ofOption o e : Proc σ τ ε α).Keeps I :=
  fun _ hs => hs

@[simp]
theorem keeps_perform (op : τ) : (perform op : Proc σ τ ε Unit).Keeps I := fun _ hs => hs

@[simp]
theorem keeps_read (g : σ → α) : (read g : Proc σ τ ε α).Keeps I := fun _ hs => hs

theorem keeps_update {g : σ → Except ε α × σ} (hg : ∀ s, I s → I (g s).2) :
    (update g : Proc σ τ ε α).Keeps I :=
  hg

theorem keeps_mapError {g : ε → ε'} (hp : p.Keeps I) : (p.mapError g).Keeps I := by
  intro s hs
  rw [run_mapError_state]
  exact hp s hs

/-! A step that leaves the state alone keeps what the rest keeps. -/

@[simp]
theorem keeps_ofOption_bind :
    (ofOption o e >>= f).Keeps I ↔ ∀ a, o = some a → (f a).Keeps I := by
  cases o with
  | none => exact iff_of_true (fun _ hs => hs) (by simp)
  | some a => exact ⟨fun h b hb => Option.some.inj hb ▸ h, fun h => h a rfl⟩

@[simp]
theorem keeps_ofExcept_bind :
    (ofExcept x >>= f).Keeps I ↔ ∀ a, x = .ok a → (f a).Keeps I := by
  cases x with
  | error e => exact iff_of_true (fun _ hs => hs) (by simp)
  | ok a => exact ⟨fun h b hb => Except.ok.inj hb ▸ h, fun h => h a rfl⟩

@[simp]
theorem keeps_ensure_bind [Decidable c] :
    (ensure c e >>= g).Keeps I ↔ (c → (g ()).Keeps I) := by
  by_cases hc : c <;> simp [ensure, hc, Unique.forall_iff]

@[simp]
theorem keeps_perform_bind :
    (perform op >>= g).Keeps I ↔ (g ()).Keeps I :=
  Iff.rfl

@[simp]
theorem keeps_read_bind {g : σ → α} (hf : ∀ a, (f a).Keeps I) : (read g >>= f).Keeps I :=
  keeps_bind (keeps_read g) hf

/-! ### What every execution performs -/

/-- Every operation of every execution of `p`, successful or refused, is one of `P`. -/
def Performs (P : τ → Prop) (p : Proc σ τ ε α) : Prop := ∀ s, ∀ op ∈ (p.run s).trace, P op

section

variable {P : τ → Prop}

theorem performs_pure (a : α) : (pure a : Proc σ τ ε α).Performs P := nofun

theorem performs_bind (hp : p.Performs P) (hf : ∀ a, (f a).Performs P) : (p >>= f).Performs P := by
  intro s op hop
  have hps := hp s
  simp only [Bind.bind, Proc.bind] at hop
  rcases h : p.run s with ⟨e | a, s₁, t₁⟩ <;> rw [h] at hop hps
  · exact hps op hop
  · rcases List.mem_append.mp hop with hfirst | hrest
    · exact hps op hfirst
    · exact hf a s₁ op hrest

theorem performs_ofExcept (x : Except ε α) : (ofExcept x : Proc σ τ ε α).Performs P := nofun

theorem performs_ensure (c : Prop) [Decidable c] (e : ε) :
    (ensure c e : Proc σ τ ε Unit).Performs P :=
  nofun

theorem performs_ofOption (o : Option α) (e : ε) : (ofOption o e : Proc σ τ ε α).Performs P := nofun

theorem performs_perform (hop : P op) : (perform op : Proc σ τ ε Unit).Performs P := by
  intro s op' hop'
  rwa [List.mem_singleton.mp hop']

theorem performs_update (g : σ → Except ε α × σ) : (update g : Proc σ τ ε α).Performs P := nofun

theorem performs_mapError {g : ε → ε'} (hp : p.Performs P) : (p.mapError g).Performs P := by
  intro s op hop
  rw [run_mapError_trace] at hop
  exact hp s op hop

end

/-! ### Executions that leave no trace -/

/-- No execution of `p`, successful or refused, leaves a trace. -/
def Silent (p : Proc σ τ ε α) : Prop := ∀ s, (p.run s).trace = []

theorem Silent.returns (hp : p.Silent) (h : p.Returns s a s' t) : t = [] := by
  have hs := hp s
  rwa [h] at hs

theorem silent_pure (a : α) : (pure a : Proc σ τ ε α).Silent := fun _ => rfl

theorem silent_bind (hp : p.Silent) (hf : ∀ a, (f a).Silent) : (p >>= f).Silent := by
  intro s
  have hps := hp s
  simp only [Bind.bind, Proc.bind]
  rcases h : p.run s with ⟨e | a, s₁, t₁⟩
  · simpa [h] using hps
  · rw [h] at hps
    simpa [hf a s₁] using hps

theorem silent_refuse (e : ε) : (refuse e : Proc σ τ ε α).Silent := fun _ => rfl

theorem silent_ofExcept (x : Except ε α) : (ofExcept x : Proc σ τ ε α).Silent := fun _ => rfl

theorem silent_ensure (c : Prop) [Decidable c] (e : ε) :
    (ensure c e : Proc σ τ ε Unit).Silent :=
  fun _ => rfl

theorem silent_ofOption (o : Option α) (e : ε) : (ofOption o e : Proc σ τ ε α).Silent :=
  fun _ => rfl

theorem silent_ofOption_bind (hf : ∀ a, (f a).Silent) :
    (ofOption o e >>= f).Silent :=
  silent_bind (silent_ofOption o e) hf

theorem silent_read (g : σ → α) : (read g : Proc σ τ ε α).Silent := fun _ => rfl

theorem silent_update (g : σ → Except ε α × σ) : (update g : Proc σ τ ε α).Silent := fun _ => rfl

theorem silent_mapError {g : ε → ε'} (hp : p.Silent) : (p.mapError g).Silent := by
  intro s
  rw [run_mapError_trace]
  exact hp s

theorem Silent.run_bind (hp : p.Silent) :
    (∃ e s', (p >>= f).run s = ⟨.error e, s', []⟩) ∨
      ∃ a s', p.Returns s a s' [] ∧ (p >>= f).run s = (f a).run s' := by
  have hps := hp s
  simp only [Bind.bind, Proc.bind, Returns]
  rcases h : p.run s with ⟨e | a, s₁, t₁⟩ <;> rw [h] at hps <;> subst hps
  · exact .inl ⟨e, s₁, rfl⟩
  · exact .inr ⟨a, s₁, rfl, by simp⟩

theorem Silent.performs {P : τ → Prop} (hp : p.Silent) : p.Performs P := by
  intro s op hop
  rw [hp s] at hop
  cases hop

/-! ### How every execution ends -/

structure Ends (P : τ → Prop) (E : ε → Prop) (A : α → Prop) (p : Proc σ τ ε α) : Prop where
  performs : p.Performs P
  refused : ∀ s e, (p.run s).result = .error e → E e
  returned : ∀ s a, (p.run s).result = .ok a → A a

section

variable {P : τ → Prop} {E : ε → Prop} {A : α → Prop} {B : β → Prop}

theorem ends_pure (ha : A a) : (pure a : Proc σ τ ε α).Ends P E A := by
  refine ⟨performs_pure a, nofun, fun s b hb => ?_⟩
  cases hb
  exact ha

theorem ends_bind (hp : p.Ends P E A) (hf : ∀ a, A a → (f a).Ends P E B) :
    (p >>= f).Ends P E B := by
  refine ⟨fun s op hop => ?_, fun s e he => ?_, fun s b hb => ?_⟩
  · have hreturned := hp.returned s
    have hperforms := hp.performs s
    simp only [Bind.bind, Proc.bind] at hop
    rcases h : p.run s with ⟨e | a, s₁, t₁⟩ <;> rw [h] at hop hperforms hreturned
    · exact hperforms op hop
    · rcases List.mem_append.mp hop with hmem | hmem
      · exact hperforms op hmem
      · exact (hf a (hreturned a rfl)).performs s₁ op hmem
  · rw [result_bind] at he
    cases h : (p.run s).result with
    | error e' =>
      rw [h] at he
      obtain rfl := Except.error.inj he
      exact hp.refused s _ h
    | ok a =>
      rw [h] at he
      exact (hf a (hp.returned s a h)).refused _ e he
  · rw [result_bind] at hb
    cases h : (p.run s).result with
    | error e' =>
      rw [h] at hb
      cases hb
    | ok a =>
      rw [h] at hb
      exact (hf a (hp.returned s a h)).returned _ b hb

theorem ends_ofExcept (he : ∀ e, x = .error e → E e) (ha : ∀ a, x = .ok a → A a) :
    (ofExcept x : Proc σ τ ε α).Ends P E A :=
  ⟨performs_ofExcept x, fun _ => he, fun _ => ha⟩

theorem ends_ofOption (he : E e) :
    (ofOption o e : Proc σ τ ε α).Ends P E fun _ => True := by
  refine ends_ofExcept (fun e' he' => ?_) fun _ _ => trivial
  cases o with
  | none => exact Except.error.inj he' ▸ he
  | some a => cases he'

theorem ends_ensure [Decidable c] (he : E e) :
    (ensure c e : Proc σ τ ε Unit).Ends P E fun _ => True := by
  refine ends_ofExcept (fun e' he' => ?_) fun _ _ => trivial
  split at he'
  · cases he'
  · exact Except.error.inj he' ▸ he

theorem ends_perform (hop : P op) :
    (perform op : Proc σ τ ε Unit).Ends P E fun _ => True :=
  ⟨performs_perform hop, nofun, fun _ _ _ => trivial⟩

theorem ends_mapError {g : ε' → ε} {q : Proc σ τ ε' α} (hq : q.Performs P) (hg : ∀ e, E (g e)) :
    (q.mapError g).Ends P E fun _ => True := by
  refine ⟨performs_mapError hq, fun s e he => ?_, fun _ _ _ => trivial⟩
  simp only [mapError] at he
  split at he
  · exact Except.error.inj he ▸ hg _
  · cases he

theorem ends_ofOption_bind (he : E e) (hf : ∀ a, (f a).Ends P E B) :
    (ofOption o e >>= f).Ends P E B :=
  ends_bind (ends_ofOption he) fun a _ => hf a

theorem ends_ensure_bind [Decidable c] (he : E e)
    (hg : (g ()).Ends P E B) : (ensure c e >>= g).Ends P E B :=
  ends_bind (ends_ensure he) fun _ _ => hg

end

end Proc

end Signer
