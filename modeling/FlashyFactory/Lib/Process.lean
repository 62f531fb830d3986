import FlashyFactory.Lib.Transition
import Mathlib.Logic.Function.Basic

/-! # Programs that issue commands

A program is a tree: it issues a command and goes on with the answer. Several programs run over
one shared world, where each can stop for good between two commands.

A `Monitor` says which commands a program may issue, given what it has been answered so far, and
`Prog.Safe` that the program never issues another. The verification conditions of `Prog.Safe` are
computed along the program, and `Machine.invariant` turns safe programs into an invariant of
every run of the machine. -/

namespace Process

/-- A program over the commands `κ` with the answers `α` that returns a `β`. -/
inductive Prog (κ : Type u) (α : κ → Type v) (β : Type w)
  | done (b : β)
  | call (c : κ) (next : α c → Prog κ α β)

namespace Prog
variable {κ : Type u} {α : κ → Type v} {β γ ε : Type w} {μ : Type x}

def bind : Prog κ α β → (β → Prog κ α γ) → Prog κ α γ
  | done b, f => f b
  | call c next, f => call c fun a => (next a).bind f

instance : Monad (Prog κ α) where
  pure := done
  bind := bind

/-- The program over the commands `f c`. -/
def embed {κ' : Type a} {α' : κ' → Type v} (f : κ → κ') :
    Prog κ (fun c => α' (f c)) β → Prog κ' α' β
  | done b => done b
  | call c next => call (f c) fun a => (next a).embed f

end Prog

/-- What a program may do, over a state that follows its commands and their answers. -/
structure Monitor (κ : Type u) (α : κ → Type v) (μ : Type x) where
  /-- The command may be issued. -/
  ok : μ → κ → Prop
  /-- The answer is possible. -/
  may : μ → (c : κ) → α c → Prop
  next : μ → (c : κ) → α c → μ

/-- What a monitor demands of a program that is embedded in its commands. -/
def Monitor.comap {κ' : Type a} {α' : κ' → Type v} (M : Monitor κ' α' μ) (f : κ → κ') :
    Monitor κ (fun c => α' (f c)) μ where
  ok m c := M.ok m (f c)
  may m c a := M.may m (f c) a
  next m c a := M.next m (f c) a

namespace Prog
variable {κ : Type u} {α : κ → Type v} {β γ ε : Type w} {μ : Type x} {M : Monitor κ α μ}

/-- The program issues only commands that the monitor allows, and what it returns satisfies `Q`. -/
def Safe (M : Monitor κ α μ) : Prog κ α β → (β → μ → Prop) → μ → Prop
  | done b, Q, m => Q b m
  | call c next, Q, m => M.ok m c ∧ ∀ a, M.may m c a → (next a).Safe M Q (M.next m c a)

theorem safe_bind {p : Prog κ α β} {f : β → Prog κ α γ} {Q : γ → μ → Prop} :
    (p >>= f).Safe M Q m ↔ p.Safe M (fun b m => (f b).Safe M Q m) m := by
  induction p generalizing m with
  | done b => rfl
  | call c next ih => exact and_congr .rfl (forall_congr' fun a => imp_congr .rfl (ih a))

theorem safe_embed {κ' : Type a} {α' : κ' → Type v} {M : Monitor κ' α' μ} {f : κ → κ'}
    {p : Prog κ (fun c => α' (f c)) β} {Q : β → μ → Prop} :
    (p.embed f).Safe M Q m ↔ p.Safe (M.comap f) Q m := by
  induction p generalizing m with
  | done b => rfl
  | call c next ih => exact and_congr .rfl (forall_congr' fun a => imp_congr .rfl (ih a))

theorem Safe.mono {Q Q' : β → μ → Prop} (hQ : ∀ b m, Q b m → Q' b m) :
    ∀ {p : Prog κ α β} {m}, p.Safe M Q m → p.Safe M Q' m
  | done _, _, h => hQ _ _ h
  | call _ _, _, ⟨hok, h⟩ => ⟨hok, fun a ha => (h a ha).mono hQ⟩

/-- Under a monitor that allows every command, every program is safe. -/
theorem Safe.of_ok (hok : ∀ m c, M.ok m c) :
    ∀ {p : Prog κ α β} {m}, p.Safe M (fun _ _ => True) m
  | done _, _ => trivial
  | call _ _, _ => ⟨hok _ _, fun _ _ => Safe.of_ok hok⟩

/-- A monitor that allows more, of answers that are possible for the other one. -/
theorem Safe.weaken {M M' : Monitor κ α μ} {Q : β → μ → Prop} (hok : ∀ {m c}, M.ok m c → M'.ok m c)
    (hmay : ∀ {m c a}, M'.may m c a → M.may m c a) (hnext : M'.next = M.next) :
    ∀ {p : Prog κ α β} {m}, p.Safe M Q m → p.Safe M' Q m
  | done _, _, h => h
  | call c _, m, ⟨h, h'⟩ => ⟨hok h, fun a ha => by
      rw [hnext]
      exact (h' a (hmay ha)).weaken hok hmay hnext⟩

end Prog

/-! ## Programs that can fail -/

/-- A program that returns a `β` or fails with an `ε`. -/
abbrev Script (κ : Type u) (α : κ → Type v) (ε β : Type w) := ExceptT ε (Prog κ α) β

namespace Script
variable {κ : Type u} {α : κ → Type v} {β γ ε ζ : Type w} {μ : Type x} {M : Monitor κ α μ}

/-- A command whose answer is the result of the script. -/
def issue (c : κ) (answer : α c → Except ε β) : Script κ α ε β :=
  ExceptT.mk (.call c fun a => .done (answer a))

/-- The script, with its failure as a value. -/
def attempt (x : Script κ α ε β) : Script κ α ε (Except ε β) :=
  ExceptT.mk (x.run.bind fun r => .done (.ok r))

/-- The script, with its failure changed by `f`. -/
def mapFailure (f : ε → ζ) (x : Script κ α ε β) : Script κ α ζ β :=
  ExceptT.mk (x.run.bind fun r => .done (r.mapError f))

/-- The script over the commands `f c`. -/
def embed {κ' : Type a} {α' : κ' → Type v} (f : κ → κ') (x : Script κ (fun c => α' (f c)) ε β) :
    Script κ' α' ε β :=
  ExceptT.mk (Prog.embed f x.run)

/-- The program of a script whose result nobody reads. -/
def detach (x : Script κ α ε PUnit) : Prog κ α PUnit := x.run >>= fun _ => pure ⟨⟩

/-- The script issues only commands that the monitor allows, a result satisfies `Q` and a failure
satisfies `E`. -/
def Safe (M : Monitor κ α μ) (x : Script κ α ε β) (Q : β → μ → Prop) (E : ε → μ → Prop) (m : μ) :
    Prop :=
  x.run.Safe M (fun r m => match r with
    | .ok b => Q b m
    | .error e => E e m) m

variable {Q Q' : β → μ → Prop} {E E' : ε → μ → Prop}

theorem Safe.mono {x : Script κ α ε β} (h : Safe M x Q E m) (hQ : ∀ b m, Q b m → Q' b m)
    (hE : ∀ e m, E e m → E' e m) : Safe M x Q' E' m := by
  refine Prog.Safe.mono (fun r m hr => ?_) h
  cases r with
  | ok b => exact hQ b m hr
  | error e => exact hE e m hr

@[simp] theorem safe_pure : Safe M (pure b : Script κ α ε β) Q E m ↔ Q b m := .rfl

@[simp] theorem safe_throw : Safe M (throw e : Script κ α ε β) Q E m ↔ E e m := .rfl

@[simp] theorem safe_bind {x : Script κ α ε γ} {f : γ → Script κ α ε β} :
    Safe M (x >>= f) Q E m ↔ Safe M x (fun b m => Safe M (f b) Q E m) E m := by
  refine Iff.trans Prog.safe_bind ⟨Prog.Safe.mono fun r m h => ?_, Prog.Safe.mono fun r m h => ?_⟩
  all_goals
    cases r with
    | ok b => exact h
    | error e => exact h

@[simp] theorem safe_attempt {x : Script κ α ε β} {Q : Except ε β → μ → Prop} :
    Safe M (attempt x) Q E m ↔ Safe M x (fun b m => Q (.ok b) m) (fun e m => Q (.error e) m) m := by
  refine Iff.trans Prog.safe_bind ⟨Prog.Safe.mono fun r m h => ?_, Prog.Safe.mono fun r m h => ?_⟩
  all_goals
    cases r with
    | ok b => exact h
    | error e => exact h

@[simp] theorem safe_mapFailure {f : ζ → ε} {x : Script κ α ζ β} :
    Safe M (mapFailure f x) Q E m ↔ Safe M x Q (fun e m => E (f e) m) m := by
  refine Iff.trans Prog.safe_bind ⟨Prog.Safe.mono fun r m h => ?_, Prog.Safe.mono fun r m h => ?_⟩
  all_goals
    cases r with
    | ok b => exact h
    | error e => exact h

theorem safe_embed {κ' : Type a} {α' : κ' → Type v} {M : Monitor κ' α' μ} {f : κ → κ'}
    {x : Script κ (fun c => α' (f c)) ε β} :
    Safe M (embed f x) Q E m ↔ Safe (M.comap f) x Q E m := Prog.safe_embed

theorem safe_detach {x : Script κ α ε PUnit} :
    (detach x).Safe M (fun _ _ => True) m ↔ Safe M x (fun _ _ => True) (fun _ _ => True) m := by
  refine Iff.trans Prog.safe_bind ⟨Prog.Safe.mono fun r m h => ?_, Prog.Safe.mono fun r m h => ?_⟩
  · cases r <;> trivial
  · trivial

/-- The script leaves the state of the monitor as it is. -/
def Still (M : Monitor κ α μ) (x : Script κ α ε β) : Prop :=
  ∀ m, Safe M x (fun _ m' => m' = m) (fun _ m' => m' = m) m

namespace Still
variable {x : Script κ α ε β} {f : β → Script κ α ε γ}

theorem safe (h : Still M x) (hQ : ∀ b, Q b m) (hE : ∀ e, E e m) : Safe M x Q E m :=
  (h m).mono (fun b _ hm => hm ▸ hQ b) fun e _ hm => hm ▸ hE e

theorem pure (b : β) : Still M (pure b : Script κ α ε β) := fun _ => rfl

theorem bind (hx : Still M x) (hf : ∀ b, Still M (f b)) : Still M (x >>= f) := fun m =>
  safe_bind.mpr (hx.safe (fun b => hf b m) fun _ => rfl)

theorem attempt (hx : Still M x) : Still M (attempt x) := fun _ =>
  safe_attempt.mpr (hx.safe (fun _ => rfl) fun _ => rfl)

theorem mapFailure (g : ε → ζ) (hx : Still M x) : Still M (mapFailure g x) := fun _ =>
  safe_mapFailure.mpr (hx.safe (fun _ => rfl) fun _ => rfl)

/-- A command that the monitor always allows and does not note. -/
theorem issue {c : κ} {answer : α c → Except ε β} (hok : ∀ m, M.ok m c)
    (hnext : ∀ m a, M.next m c a = m) : Still M (issue c answer) := by
  refine fun m => ⟨hok m, fun a _ => ?_⟩
  cases ha : answer a with
  | ok b => simpa only [Prog.Safe, ha] using hnext m a
  | error e => simpa only [Prog.Safe, ha] using hnext m a

end Still

/-- A loop whose body keeps `J`. -/
theorem safe_forM {J : μ → Prop} {f : δ → Script κ α ε PUnit} :
    ∀ {xs : List δ} {m}, (∀ x ∈ xs, ∀ m, J m → Safe M (f x) (fun _ => J) (fun _ => J) m) → J m →
      Safe M (xs.forM f) (fun _ => J) (fun _ => J) m
  | [], _, _, hm => hm
  | x :: xs, m, hf, hm => by
    refine safe_bind.mpr ?_
    refine (hf x (List.mem_cons_self ..) m hm).mono (fun _ m hm => ?_) fun _ _ hm => hm
    exact safe_forM (fun y hy => hf y (List.mem_cons_of_mem _ hy)) hm

end Script

/-! ## Machines -/

/-- A world that runs programs. The choices of the environment, such as whether a command fails,
are an input of `exec`. -/
structure Machine (σ : Type a) (κ : Type u) (α : κ → Type v) (ι : Type b) (ρ : Type c) (ω : Type d)
    (η : Type e) where
  program : ρ → Prog κ α Unit
  exec : σ → ι → (c : κ) → ω → α c × σ
  mayStart : σ → ρ → Bool
  start : σ → ι → ρ → σ
  env : σ → η → σ

inductive Event (ι : Type b) (ρ : Type c) (ω : Type d) (η : Type e)
  /-- The process takes its next step. -/
  | act (p : ι) (choice : ω)
  /-- The process stops for good. -/
  | crash (p : ι)
  | start (p : ι) (role : ρ)
  | env (e : η)

/-- The process that the event is about. -/
def Event.process? {ι : Type b} {ρ : Type c} {ω : Type d} {η : Type e} : Event ι ρ ω η → Option ι
  | act p _ | crash p | start p _ => some p
  | env _ => none

namespace Machine
variable {σ : Type a} {κ : Type u} {α : κ → Type v} {ι : Type b} {ρ : Type c} {ω : Type d}
  {η : Type e} {μ : Type x} [DecidableEq ι]

/-- The world and the processes that are alive. -/
structure State (σ : Type a) (κ : Type u) (α : κ → Type v) (ι : Type b) (ρ : Type c) where
  world : σ
  procs : ι → Option (ρ × Prog κ α Unit)

def State.role (s : State σ κ α ι ρ) (p : ι) : Option ρ := (s.procs p).map Prod.fst

def step (𝓜 : Machine σ κ α ι ρ ω η) (s : State σ κ α ι ρ) : Event ι ρ ω η → State σ κ α ι ρ
  | .act p choice => match s.procs p with
    | none => s
    | some (_, .done _) => { s with procs := Function.update s.procs p none }
    | some (r, .call c next) =>
      let (a, world) := 𝓜.exec s.world p c choice
      { world := world, procs := Function.update s.procs p (some (r, next a)) }
  | .crash p => { s with procs := Function.update s.procs p none }
  | .start p r =>
    if (s.procs p).isNone && 𝓜.mayStart s.world r then
      { world := 𝓜.start s.world p r
        procs := Function.update s.procs p (some (r, 𝓜.program r)) }
    else s
  | .env e => { s with world := 𝓜.env s.world e }

/-- A run leaves the processes alone that none of its events is about. -/
theorem run_procs {𝓜 : Machine σ κ α ι ρ ω η} {s : State σ κ α ι ρ} {es : List (Event ι ρ ω η)}
    (h : ∀ e ∈ es, e.process? ≠ some p) : (Transition.run 𝓜.step s es).procs p = s.procs p := by
  induction es generalizing s with
  | nil => rfl
  | cons e es ih =>
    rw [Transition.run_cons, ih fun e he => h e (List.mem_cons_of_mem _ he)]
    have hne : e.process? ≠ some p := h e List.mem_cons_self
    cases e with
    | act q choice =>
      have hq : p ≠ q := fun hq => hne (congrArg some hq.symm)
      simp only [step]
      split <;> simp [Function.update_of_ne hq]
    | crash q =>
      have hq : p ≠ q := fun hq => hne (congrArg some hq.symm)
      simp [step, Function.update_of_ne hq]
    | start q r =>
      have hq : p ≠ q := fun hq => hne (congrArg some hq.symm)
      simp only [step]
      split <;> simp [Function.update_of_ne hq]
    | env e => rfl

/-- If the event lets a process issue a command, then `C` holds of the world, the roles of the
processes, that process and that command. -/
def Issues (C : σ → (ι → Option ρ) → ι → κ → Prop) (s : State σ κ α ι ρ) :
    Event ι ρ ω η → Prop
  | .act p _ => match s.procs p with
    | some (_, .call c _) => C s.world s.role p c
    | _ => True
  | _ => True

instance {C : σ → (ι → Option ρ) → ι → κ → Prop} [∀ w roles p c, Decidable (C w roles p c)]
    {s : State σ κ α ι ρ} : {e : Event ι ρ ω η} → Decidable (Issues C s e)
  | .act p _ => by
    unfold Issues
    dsimp only
    split <;> infer_instance
  | .crash _ | .start _ _ | .env _ => instDecidableTrue

omit [DecidableEq ι] in
theorem Issues.mono {C D : σ → (ι → Option ρ) → ι → κ → Prop} (hCD : ∀ w roles p c, C w roles p c →
    D w roles p c) {s : State σ κ α ι ρ} : ∀ {e : Event ι ρ ω η}, Issues C s e → Issues D s e
  | .act p _, h => by
    simp only [Issues] at h ⊢
    split
    · next hp =>
      simp only [hp] at h
      exact hCD _ _ _ _ h
    · trivial
  | .crash _, _ | .start _ _, _ | .env _, _ => trivial

variable {𝓜 : Machine σ κ α ι ρ ω η}

/-- A property of the world that every allowed command, every start and the environment keep. -/
theorem world_invariant {C : σ → (ι → Option ρ) → ι → κ → Prop} {P : σ → Prop}
    (hact : ∀ w roles p c choice, P w → C w roles p c → P (𝓜.exec w p c choice).2)
    (hstart : ∀ w p r, P w → P (𝓜.start w p r)) (henv : ∀ w e, P w → P (𝓜.env w e))
    {s : State σ κ α ι ρ} {es : List (Event ι ρ ω η)}
    (hes : Transition.Meets 𝓜.step (Issues C) s es) (hs : P s.world) :
    P (Transition.run 𝓜.step s es).world := by
  refine hes.invariant (P := fun s => P s.world) (fun s e hs he => ?_) hs
  cases e with
  | act p choice =>
    simp only [step]
    split
    · exact hs
    · exact hs
    · next r c next hp =>
      simp only [Issues, hp] at he
      exact hact _ _ _ _ _ hs he
  | crash p => exact hs
  | start p r =>
    simp only [step]
    split
    · exact hstart _ _ _ hs
    · exact hs
  | env e => exact henv _ _ hs

/-! ### The invariant rule -/

/-- The states of the monitors of the processes that are alive. -/
abbrev Watches (ι : Type b) (ρ : Type c) (μ : Type x) := ι → Option (ρ × μ)

def roles (ms : Watches ι ρ μ) (p : ι) : Option ρ := (ms p).map Prod.fst

/-- Every process is safe from where its monitor is. -/
def Tracks (M : ρ → Monitor κ α μ) (s : State σ κ α ι ρ) (ms : Watches ι ρ μ) : Prop :=
  ∀ p, match s.procs p, ms p with
    | none, none => True
    | some (r, x), some (r', m) => r' = r ∧ x.Safe (M r) (fun _ _ => True) m
    | _, _ => False

variable {M : ρ → Monitor κ α μ} {s : State σ κ α ι ρ} {ms : Watches ι ρ μ}

omit [DecidableEq ι] in
theorem Tracks.roles_eq (H : Tracks M s ms) : s.role = roles ms := by
  funext p
  have hp := H p
  revert hp
  cases hs : s.procs p <;> cases hm : ms p <;> simp [State.role, roles, hs, hm]
  exact fun h _ => h.symm

theorem Tracks.update_none (H : Tracks M s ms) (p : ι) :
    Tracks M ⟨w, Function.update s.procs p none⟩ (Function.update ms p none) := by
  intro q
  by_cases hq : q = p
  · subst hq
    simp
  · simpa [hq] using H q

theorem Tracks.update_some (H : Tracks M s ms) (p : ι)
    (hx : x.Safe (M r) (fun _ _ => True) m) :
    Tracks M ⟨w, Function.update s.procs p (some (r, x))⟩
      (Function.update ms p (some (r, m))) := by
  intro q
  by_cases hq : q = p
  · subst hq
    simpa using hx
  · simpa [hq] using H q

/-- The condition `C` holds of a command that the event lets a process issue, with the choice it is
answered by, and `E` of what the environment does. -/
def Does (C : σ → (ι → Option ρ) → ι → κ → ω → Prop) (E : σ → η → Prop)
    (s : State σ κ α ι ρ) :
    Event ι ρ ω η → Prop
  | .act p choice => match s.procs p with
    | some (_, .call c _) => C s.world s.role p c choice
    | _ => True
  | .env e => E s.world e
  | _ => True

instance {C : σ → (ι → Option ρ) → ι → κ → ω → Prop} {E : σ → η → Prop}
    [∀ w roles p c o, Decidable (C w roles p c o)] [∀ w e, Decidable (E w e)]
    {s : State σ κ α ι ρ} : {e : Event ι ρ ω η} → Decidable (Does C E s e)
  | .act p _ => by
    unfold Does
    dsimp only
    split <;> infer_instance
  | .env e => inferInstanceAs (Decidable (E s.world e))
  | .crash _ | .start _ _ => instDecidableTrue

omit [DecidableEq ι] in
theorem Does.of_forall {C : σ → (ι → Option ρ) → ι → κ → ω → Prop} {E : σ → η → Prop}
    (hC : ∀ w roles p c o, C w roles p c o) (hE : ∀ w e, E w e) (s : State σ κ α ι ρ) :
    ∀ e : Event ι ρ ω η, Does C E s e
  | .act p _ => by
    simp only [Does]
    split
    · exact hC _ _ _ _ _
    · trivial
  | .env e => hE _ e
  | .crash _ | .start _ _ => trivial

/-- What a proof by invariant shows of a machine: the programs are safe, and the invariant over
the world and the monitors is kept by every command that is allowed and safe, by crashes, starts
and what the environment may do. -/
structure Maintains (𝓜 : Machine σ κ α ι ρ ω η) (M : ρ → Monitor κ α μ) (begin : ρ → μ)
    (C : σ → (ι → Option ρ) → ι → κ → ω → Prop) (E : σ → η → Prop)
    (I : σ → Watches ι ρ μ → Prop) : Prop where
  program : ∀ r, (𝓜.program r).Safe (M r) (fun _ _ => True) (begin r)
  act : ∀ {w ms p r m c choice}, I w ms → ms p = some (r, m) → (M r).ok m c →
    C w (roles ms) p c choice → (M r).may m c (𝓜.exec w p c choice).1 ∧ I (𝓜.exec w p c choice).2
      (Function.update ms p (some (r, (M r).next m c (𝓜.exec w p c choice).1)))
  crash : ∀ {w ms}, I w ms → ∀ p, I w (Function.update ms p none)
  start : ∀ {w ms p r}, I w ms → ms p = none → 𝓜.mayStart w r = true →
    I (𝓜.start w p r) (Function.update ms p (some (r, begin r)))
  env : ∀ {w ms e}, I w ms → E w e → I (𝓜.env w e) ms

section
variable {begin : ρ → μ} {C : σ → (ι → Option ρ) → ι → κ → ω → Prop} {E : σ → η → Prop}
  {I : σ → Watches ι ρ μ → Prop}

theorem Maintains.step (K : Maintains 𝓜 M begin C E I) (H : Tracks M s ms) (hI : I s.world ms)
    (e : Event ι ρ ω η) (he : Does C E s e) :
    ∃ ms, Tracks M (𝓜.step s e) ms ∧ I (𝓜.step s e).world ms := by
  cases e with
  | act p choice =>
    have hp := H p
    simp only [Machine.step]
    split
    · exact ⟨ms, H, hI⟩
    · exact ⟨_, H.update_none p, K.crash hI p⟩
    · next r c next hs =>
      rw [hs] at hp
      revert hp
      cases hm : ms p with
      | none => exact fun h => h.elim
      | some rm =>
        rintro ⟨rfl, hok, hnext⟩
        simp only [Does, hs, H.roles_eq] at he
        obtain ⟨hmay, hI'⟩ := K.act hI hm hok he
        exact ⟨_, H.update_some p (hnext _ hmay), hI'⟩
  | crash p => exact ⟨_, H.update_none p, K.crash hI p⟩
  | start p r =>
    simp only [Machine.step]
    split
    · next hstart =>
      simp only [Bool.and_eq_true, Option.isNone_iff_eq_none] at hstart
      have hp := H p
      rw [hstart.1] at hp
      have hm : ms p = none := by
        cases hm : ms p with
        | none => rfl
        | some rm => rw [hm] at hp; exact hp.elim
      exact ⟨_, H.update_some p (K.program r), K.start hI hm hstart.2⟩
    · exact ⟨ms, H, hI⟩
  | env e => exact ⟨ms, H, K.env hI he⟩

/-- A stronger condition on the run. -/
theorem Maintains.mono {C' : σ → (ι → Option ρ) → ι → κ → ω → Prop} {E' : σ → η → Prop}
    (K : Maintains 𝓜 M begin C E I) (hC : ∀ {w roles p c o}, C' w roles p c o → C w roles p c o)
    (hE : ∀ {w e}, E' w e → E w e) : Maintains 𝓜 M begin C' E' I where
  program := K.program
  act hI hm hok hc := K.act hI hm hok (hC hc)
  crash := K.crash
  start := K.start
  env hI he := K.env hI (hE he)

/-- An invariant that is kept as long as another one holds. -/
theorem Maintains.and {J : σ → Watches ι ρ μ → Prop} (K : Maintains 𝓜 M begin C E I)
    (act : ∀ {w ms p r m c choice}, I w ms → J w ms → ms p = some (r, m) → (M r).ok m c →
      C w (roles ms) p c choice → J (𝓜.exec w p c choice).2
        (Function.update ms p (some (r, (M r).next m c (𝓜.exec w p c choice).1))))
    (crash : ∀ {w ms}, I w ms → J w ms → ∀ p, J w (Function.update ms p none))
    (start : ∀ {w ms p r}, I w ms → J w ms → ms p = none → 𝓜.mayStart w r = true →
      J (𝓜.start w p r) (Function.update ms p (some (r, begin r))))
    (env : ∀ {w ms e}, I w ms → J w ms → E w e → J (𝓜.env w e) ms) :
    Maintains 𝓜 M begin C E fun w ms => I w ms ∧ J w ms where
  program := K.program
  act H hm hok hc := ⟨(K.act H.1 hm hok hc).1, (K.act H.1 hm hok hc).2, act H.1 H.2 hm hok hc⟩
  crash H p := ⟨K.crash H.1 p, crash H.1 H.2 p⟩
  start H hm hs := ⟨K.start H.1 hm hs, start H.1 H.2 hm hs⟩
  env H he := ⟨K.env H.1 he, env H.1 H.2 he⟩

/-- **The invariant rule**, for runs that meet a condition. -/
theorem Maintains.invariant (K : Maintains 𝓜 M begin C E I) {es : List (Event ι ρ ω η)}
    (hes : Transition.Meets 𝓜.step (Does C E) s es) (H : Tracks M s ms) (hI : I s.world ms) :
    ∃ ms, Tracks M (Transition.run 𝓜.step s es) ms ∧ I (Transition.run 𝓜.step s es).world ms :=
  hes.invariant (P := fun s => ∃ ms, Tracks M s ms ∧ I s.world ms)
    (fun _ e ⟨_, H, hI⟩ he => K.step H hI e he) ⟨ms, H, hI⟩

end

/-- The invariant rule for conditions that leave the choice and the environment free. -/
structure Keeps (𝓜 : Machine σ κ α ι ρ ω η) (M : ρ → Monitor κ α μ) (begin : ρ → μ)
    (C : σ → (ι → Option ρ) → ι → κ → Prop) (I : σ → Watches ι ρ μ → Prop) : Prop where
  program : ∀ r, (𝓜.program r).Safe (M r) (fun _ _ => True) (begin r)
  act : ∀ {w ms p r m c}, I w ms → ms p = some (r, m) → (M r).ok m c → C w (roles ms) p c →
    ∀ choice, (M r).may m c (𝓜.exec w p c choice).1 ∧ I (𝓜.exec w p c choice).2
      (Function.update ms p (some (r, (M r).next m c (𝓜.exec w p c choice).1)))
  crash : ∀ {w ms}, I w ms → ∀ p, I w (Function.update ms p none)
  start : ∀ {w ms p r}, I w ms → ms p = none → 𝓜.mayStart w r = true →
    I (𝓜.start w p r) (Function.update ms p (some (r, begin r)))
  env : ∀ {w ms}, I w ms → ∀ e, I (𝓜.env w e) ms

theorem Keeps.maintains {begin : ρ → μ} {C : σ → (ι → Option ρ) → ι → κ → Prop}
    {I : σ → Watches ι ρ μ → Prop} (K : Keeps 𝓜 M begin C I) :
    Maintains 𝓜 M begin (fun w roles p c _ => C w roles p c) (fun _ _ => True) I where
  program := K.program
  act hI hm hok hC := K.act hI hm hok hC _
  crash := K.crash
  start := K.start
  env hI _ := K.env hI _

omit [DecidableEq ι] in
theorem Issues.does {C : σ → (ι → Option ρ) → ι → κ → Prop} :
    ∀ {e : Event ι ρ ω η}, Issues C s e → Does (fun w roles p c _ => C w roles p c) (fun _ _ => True) s e
  | .act p _, h => by
    simp only [Issues] at h
    simp only [Does]
    split
    · next hp =>
      simp only [hp] at h
      exact h
    · trivial
  | .crash _, _ | .start _ _, _ | .env _, _ => trivial

/-- **The invariant rule.** -/
theorem Keeps.invariant {begin : ρ → μ} {C : σ → (ι → Option ρ) → ι → κ → Prop}
    {I : σ → Watches ι ρ μ → Prop} (K : Keeps 𝓜 M begin C I) {es : List (Event ι ρ ω η)}
    (hes : Transition.Meets 𝓜.step (Issues C) s es) (H : Tracks M s ms) (hI : I s.world ms) :
    ∃ ms, Tracks M (Transition.run 𝓜.step s es) ms ∧ I (Transition.run 𝓜.step s es).world ms :=
  K.maintains.invariant (hes.mono fun _ _ h => h.does) H hI

/-! ### Runs with their monitors -/

/-- One step of the machine and of the monitors of its processes. -/
def watch (𝓜 : Machine σ κ α ι ρ ω η) (M : ρ → Monitor κ α μ) (begin : ρ → μ)
    (x : State σ κ α ι ρ × Watches ι ρ μ) (e : Event ι ρ ω η) : State σ κ α ι ρ × Watches ι ρ μ :=
  (𝓜.step x.1 e, match e with
    | .act p choice => match x.1.procs p, x.2 p with
      | some (_, .done _), _ => Function.update x.2 p none
      | some (_, .call c _), some (r, m) =>
        Function.update x.2 p (some (r, (M r).next m c (𝓜.exec x.1.world p c choice).1))
      | _, _ => x.2
    | .crash p => Function.update x.2 p none
    | .start p r =>
      if (x.1.procs p).isNone && 𝓜.mayStart x.1.world r then
        Function.update x.2 p (some (r, begin r))
      else x.2
    | .env _ => x.2)

/-- The monitors of safe programs keep track of them. -/
theorem Tracks.watch {begin : ρ → μ} {x : State σ κ α ι ρ × Watches ι ρ μ} (H : Tracks M x.1 x.2)
    (hprogram : ∀ r, (𝓜.program r).Safe (M r) (fun _ _ => True) (begin r))
    (hmay : ∀ r m c a, (M r).may m c a) (e : Event ι ρ ω η) :
    Tracks M (𝓜.watch M begin x e).1 (𝓜.watch M begin x e).2 := by
  obtain ⟨s, ms⟩ := x
  cases e with
  | act p choice =>
    have hp := H p
    simp only [Machine.watch, Machine.step] at hp ⊢
    cases hs : s.procs p with
    | none => exact H
    | some rx =>
      obtain ⟨r, x⟩ := rx
      rw [hs] at hp
      cases x with
      | done b => exact H.update_none p
      | call c next =>
        revert hp
        cases hm : ms p with
        | none => exact fun h => h.elim
        | some rm =>
          rintro ⟨rfl, -, hnext⟩
          exact H.update_some p (hnext _ (hmay _ _ _ _))
  | crash p => exact H.update_none p
  | start p r =>
    simp only [Machine.watch, Machine.step]
    split
    · exact H.update_some p (hprogram r)
    · exact H
  | env e => exact H

omit [DecidableEq ι] in
/-- What a process issues in a watched run, its monitor allows. -/
theorem Tracks.ok (H : Tracks M s ms) (hp : s.procs p = some (r, .call c next)) :
    ∃ m, ms p = some (r, m) ∧ (M r).ok m c := by
  have h := H p
  rw [hp] at h
  revert h
  cases hm : ms p with
  | none => exact fun h => h.elim
  | some rm =>
    rintro ⟨rfl, hok, -⟩
    exact ⟨rm.2, rfl, hok⟩

/-- A condition on the watched run that, for safe programs, implies one on the run itself. -/
theorem meets_of_watch {begin : ρ → μ} {C : State σ κ α ι ρ × Watches ι ρ μ → Event ι ρ ω η → Prop}
    {D : State σ κ α ι ρ → Event ι ρ ω η → Prop}
    (hprogram : ∀ r, (𝓜.program r).Safe (M r) (fun _ _ => True) (begin r))
    (hmay : ∀ r m c a, (M r).may m c a)
    (hCD : ∀ s ms e, Tracks M s ms → C (s, ms) e → D s e) {es : List (Event ι ρ ω η)} :
    ∀ {x : State σ κ α ι ρ × Watches ι ρ μ}, Tracks M x.1 x.2 →
      Transition.Meets (𝓜.watch M begin) C x es → Transition.Meets 𝓜.step D x.1 es := by
  induction es with
  | nil => exact fun _ _ => trivial
  | cons e es ih =>
    rintro x H ⟨hC, hes⟩
    exact ⟨hCD _ _ e H hC, ih (H.watch hprogram hmay e) hes⟩

end Machine
end Process
