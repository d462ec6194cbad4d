import Playout.Turn

/-!
Turns taken apart. A turn of a machine that is part of another one is a turn of
the part with a phase put around it, or the end of the part and what follows it.
A machine that nobody disturbs takes its turns one after another (`Alone`).
-/
namespace Playout.Turn

variable {σ φ ψ ρ π : Type}

/-- Whatever a turn leads to, a state and a phase or a state and a result, has a property. -/
def Leads (on : σ → φ → Prop) (done : σ → ρ → Prop) : Turn σ φ ρ → Prop
  | blocked _ => True
  | goesOn s p => on s p
  | ends s r => done s r

theorem Leads.within {turn : Turn σ φ ρ} {phase : φ → ψ} {next : σ → ρ → Turn σ ψ π} {on : σ → φ → Prop}
    {done : σ → ρ → Prop} {on' : σ → ψ → Prop} {done' : σ → π → Prop} (leads : turn.Leads on done)
    (goes : ∀ s p, on s p → on' s (phase p)) (follows : ∀ s r, done s r → (next s r).Leads on' done') :
    (turn.within phase next).Leads on' done' := by
  cases turn with
  | blocked wake => trivial
  | goesOn s p => exact goes s p leads
  | ends s r => exact follows s r leads

theorem Leads.mono {turn : Turn σ φ ρ} {on on' : σ → φ → Prop} {done done' : σ → ρ → Prop}
    (leads : turn.Leads on done) (goes : ∀ s p, on s p → on' s p) (ends : ∀ s r, done s r → done' s r) :
    turn.Leads on' done' := by
  cases turn with
  | blocked wake => trivial
  | goesOn s p => exact goes s p leads
  | ends s r => exact ends s r leads

theorem Leads.and {turn : Turn σ φ ρ} {on on' : σ → φ → Prop} {done done' : σ → ρ → Prop}
    (leads : turn.Leads on done) (leads' : turn.Leads on' done') :
    turn.Leads (fun s p => on s p ∧ on' s p) (fun s r => done s r ∧ done' s r) := by
  cases turn with
  | blocked wake => trivial
  | goesOn s p => exact ⟨leads,leads'⟩
  | ends s r => exact ⟨leads,leads'⟩

theorem Leads.any (turn : Turn σ φ ρ) : turn.Leads (fun _ _ => True) (fun _ _ => True) := by
  cases turn <;> trivial

/-- Whether what a machine waits for has not come. -/
def Waits : Turn σ φ ρ → Prop
  | blocked _ => True
  | goesOn .. | ends .. => False

theorem not_waits_within {turn : Turn σ φ ρ} {phase : φ → ψ} {next : σ → ρ → Turn σ ψ π} (goes : ¬ turn.Waits)
    (follows : ∀ s r, ¬ (next s r).Waits) : ¬ (turn.within phase next).Waits := by
  cases turn with
  | blocked wake => exact goes
  | goesOn s p => exact id
  | ends s r => exact follows s r

/-- A machine with the turns `turn`, started in a phase and a state and not disturbed, comes to its
    end in a state and with a result. -/
inductive Alone (turn : φ → σ → Turn σ φ ρ) : φ → σ → σ → ρ → Prop
  | ends {p s t r} (turned : turn p s = .ends t r) : Alone turn p s t r
  | goesOn {p s p' s' t r} (turned : turn p s = .goesOn s' p') (rest : Alone turn p' s' t r) :
      Alone turn p s t r

/-- A machine that nobody disturbs comes to one end. -/
theorem Alone.unique {turn : φ → σ → Turn σ φ ρ} {p : φ} {s t t' : σ} {r r' : ρ}
    (one : Alone turn p s t r) (other : Alone turn p s t' r') : t = t' ∧ r = r' := by
  induction one with
  | ends turned =>
    cases other with
    | ends turned' =>
      rw [turned] at turned'
      cases turned'
      exact ⟨rfl,rfl⟩
    | goesOn turned' _ =>
      rw [turned] at turned'
      cases turned'
  | goesOn turned _ ih =>
    cases other with
    | ends turned' =>
      rw [turned] at turned'
      cases turned'
    | goesOn turned' rest' =>
      rw [turned] at turned'
      cases turned'
      exact ih rest'

theorem Alone.of_goesOn {turn : φ → σ → Turn σ φ ρ} {p p' : φ} {s s' t : σ} {r : ρ} (alone : Alone turn p s t r)
    (turned : turn p s = .goesOn s' p') : Alone turn p' s' t r := by
  cases alone with
  | ends turned' =>
    rw [turned] at turned'
    cases turned'
  | goesOn turned' rest =>
    rw [turned] at turned'
    cases turned'
    exact rest

theorem Alone.of_ends {turn : φ → σ → Turn σ φ ρ} {p : φ} {s t t' : σ} {r r' : ρ} (alone : Alone turn p s t r)
    (turned : turn p s = .ends t' r') : t = t' ∧ r = r' := alone.unique (.ends turned)

theorem Alone.not_blocked {turn : φ → σ → Turn σ φ ρ} {p : φ} {s t : σ} {r : ρ} {wake : Option Nat}
    (alone : Alone turn p s t r) : turn p s ≠ .blocked wake := by
  intro turned
  cases alone with
  | ends turned' =>
    rw [turned] at turned'
    cases turned'
  | goesOn turned' _ =>
    rw [turned] at turned'
    cases turned'

/-- A machine that nobody disturbs makes its way inside another one. -/
theorem Alone.within {turn : φ → σ → Turn σ φ ρ} {turn' : ψ → σ → Turn σ ψ π} {phase : φ → ψ}
    {next : σ → ρ → Turn σ ψ π} (part : ∀ p s, turn' (phase p) s = (turn p s).within phase next) {p : φ} {s t u : σ}
    {r : ρ} {r' : π} (alone : Alone turn p s t r) (follows : next t r = .ends u r') : Alone turn' (phase p) s u r' := by
  induction alone with
  | ends turned =>
    refine .ends ?_
    rw [part,turned]
    exact follows
  | @goesOn p s p' s' t r turned rest ih =>
    refine .goesOn ?_ (ih follows)
    rw [part,turned]
    rfl

/-- A machine that makes its way inside another one, where that ends when it does. -/
theorem Alone.of_within {turn : φ → σ → Turn σ φ ρ} {turn' : ψ → σ → Turn σ ψ π} {phase : φ → ψ}
    {next : σ → ρ → Turn σ ψ π} (part : ∀ p s, turn' (phase p) s = (turn p s).within phase next)
    (ends : ∀ s r, ∃ t r', next s r = .ends t r') {p : φ} {s u : σ} {r' : π} (alone : Alone turn' (phase p) s u r') :
    ∃ t r, Alone turn p s t r ∧ next t r = .ends u r' := by
  generalize inside : phase p = q at alone
  induction alone generalizing p with
  | ends turned =>
    subst inside
    rw [part] at turned
    cases inner : turn p _ with
    | blocked wake =>
      rw [inner] at turned
      cases turned
    | goesOn s' p' =>
      rw [inner] at turned
      cases turned
    | ends t r =>
      rw [inner] at turned
      exact ⟨t,r,.ends inner,turned⟩
  | goesOn turned rest ih =>
    subst inside
    rw [part] at turned
    cases inner : turn p _ with
    | blocked wake =>
      rw [inner] at turned
      cases turned
    | goesOn s' p' =>
      rw [inner] at turned
      cases turned
      obtain ⟨t,r,alone,last⟩ := ih rfl
      exact ⟨t,r,.goesOn inner alone,last⟩
    | ends t r =>
      obtain ⟨u,r'',done⟩ := ends t r
      rw [inner] at turned
      rw [Turn.within,done] at turned
      cases turned

end Playout.Turn
