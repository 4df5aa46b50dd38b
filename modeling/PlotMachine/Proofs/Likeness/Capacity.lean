import PlotMachine.Proofs.Capacity

/-!
# The capacity of runs that are alike

Two runs that are alike make the same frames, instances and arrays. So the capacity suffices for both or
for none of them, unless a lambda may fill the stack so much higher in the second run that it outgrows the
capacity there (`Likeness.Configs.ample`).
-/

namespace PlotMachine

namespace Likeness

variable (L : Likeness)

/-- What some lambda may fill of the stack is within the capacity in the first run and beyond it in the
second one. -/
def Outgrows (s₁ s₂ : Store) (capacity : Nat) : Prop :=
  ∃ l height₁ height₂, L.Heights height₁ height₂ ∧
    height₁ + (s₁.lambda l).maxStack ≤ capacity ∧ capacity < height₂ + (s₂.lambda l).maxStack

variable {L} {α : Type} {env₁ env₂ : Env} {capacity : Nat} {m₁ m₂ : Machine} {c₁ c₂ : Config}

/-! ## Single steps -/

/-- The capacity suffices for what a native asks for in both machines, unless the first one comes to a
fault that is excused. -/
theorem Unaware.fits {r : Routine α} (unaware : L.Unaware r) (never : ∀ f, ¬ L.excused₂ f)
    {s₁ s₂ : Store} (texts : ∀ h v, s₂.text h v = s₁.text h v) (held : Heap → List Object)
    (taken : List Value) (machines : L.Machines m₁ m₂)
    (fits : r.fits capacity s₁ held taken m₁ = true) :
    r.fits capacity s₂ held taken m₂ = true ∨
      ∃ f m, r.advance s₁ held taken m₁ = (.failed f, m) ∧ L.excused₁ f.fault := by
  induction r generalizing taken m₁ m₂ with
  | ask q next ih =>
    have answers := alike_serve texts (Routine.holding taken held) (unaware.imp_right And.left) m₁ m₂
      machines
    unfold Routine.fits at fits ⊢
    unfold Routine.advance
    rw [Bool.and_eq_true] at fits ⊢
    obtain ⟨room, fits⟩ := fits
    generalize q.serve s₁ (Routine.holding taken held) m₁ = result₁,
      q.serve s₂ (Routine.holding taken held) m₂ = result₂ at answers fits
    cases answers with
    | @ok reply _ _ _ same machines' =>
      cases same
      have later : L.Unaware (next reply) := unaware.imp_right fun reserved => reserved.2 reply
      exact (ih reply later _ machines' fits).imp_left fun fits => ⟨room, fits⟩
    | error same machines' => exact .inl ⟨room, rfl⟩
    | excused₁ excused result => exact .inr ⟨_, _, rfl, excused⟩
    | excused₂ excused result => exact absurd excused (never _)
  | _ => exact .inl rfl

section

variable (envs : L.Envs env₁ env₂)

include envs

/-- The capacity suffices for entering a lambda in both machines, unless the first one is on its last
level. -/
theorem Envs.entryFits (machines : L.Machines m₁ m₂) {l : LambdaRef} {closure : Option FrameRef}
    (fits : env₁.entryFits capacity l closure m₁ = true) :
    env₂.entryFits capacity l closure m₂ = true ∨
      L.Outgrows env₁.store env₂.store capacity ∨
      ∃ fault, env₁.barrier l closure m₁ = some fault ∧ L.excused₁ fault := by
  rcases barrier_alike envs machines l closure with same | excused
  swap
  · exact .inr (.inr excused)
  obtain ⟨n, lambda, -⟩ := envs.store.lambda l
  cases free : env₁.barrier l closure m₁ with
  | some fault => exact .inl (by simp [Env.entryFits, same, free])
  | none =>
    obtain ⟨-, near, -⟩ := Env.barrier_eq_none.1 free
    have bases := machines.stack.argBase near
    simp only [Env.entryFits, free, Option.isSome_none, Bool.false_or, Bool.and_eq_true,
      decide_eq_true_eq] at fits
    obtain ⟨vars, stack₁⟩ := fits
    by_cases stack₂ :
        m₂.stack.height - (env₁.store.lambda l).params + (env₂.store.lambda l).maxStack ≤ capacity
    · refine .inl ?_
      rw [lambda] at stack₂
      simp [Env.entryFits, same, free, lambda, vars, stack₂]
    · exact .inr (.inl ⟨l, _, _, bases, stack₁, Nat.lt_of_not_le stack₂⟩)

/-- The capacity suffices for an instance and its initialiser in both machines, unless the first one comes
to a fault that is excused. -/
theorem Envs.instanceFits (never : ∀ f, ¬ L.excused₂ f) (machines : L.Machines m₁ m₂) {r : RecordRef}
    (fits : env₁.instanceFits capacity r m₁ = true) (rest : List Task) :
    env₂.instanceFits capacity r m₂ = true ∨
      L.Outgrows env₁.store env₂.store capacity ∨
      ∃ f m, env₁.construct rest r m₁ = .error f m ∧ L.excused₁ f.fault := by
  obtain ⟨n, init, -⟩ := envs.store.lambda (env₁.store.record r).init
  unfold Env.instanceFits at fits ⊢
  simp only [envs.store.record, init] at fits ⊢
  by_cases one : (env₁.store.lambda (env₁.store.record r).init).params = 1
  swap
  · exact .inl (by simp [one])
  rw [one, bne_self_eq_false, Bool.false_or, Bool.and_eq_true] at fits ⊢
  obtain ⟨room, fits⟩ := fits
  have results := alike_allocate r (env₁.store.record r).size m₁ m₂ machines
  rw [Env.construct_eq_bind one]
  simp only [Bind.bind, EStateM.bind]
  generalize Env.allocate r (env₁.store.record r).size m₁ = result₁,
    Env.allocate r (env₁.store.record r).size m₂ = result₂ at results fits
  cases results with
  | @ok _ _ m₁' _ _ machines' =>
    rcases envs.entryFits machines' fits with fits | outgrows | ⟨fault, kept, excused⟩
    · exact .inl ⟨room, fits⟩
    · exact .inr (.inl outgrows)
    · refine .inr (.inr ⟨fault, m₁', ?_, excused⟩)
      simp only [Env.enter, kept]
  | error same machines' => exact .inl ⟨room, rfl⟩
  | excused₁ excused result => exact .inr (.inr ⟨_, _, rfl, excused⟩)
  | excused₂ excused result => exact absurd excused (never _)

/-- The capacity suffices for the next step of both runs, unless the first one ends with a fault that is
excused. -/
theorem Configs.fits (configs : L.Configs c₁ c₂) (never : ∀ f, ¬ L.excused₂ f)
    (fits : env₁.fits capacity c₁ = true) :
    env₂.fits capacity c₂ = true ∨
      L.Outgrows env₁.store env₂.store capacity ∨
      ∃ f m, env₁.step c₁ = .halted (.error f) m ∧ L.excused₁ f.fault := by
  obtain ⟨tasks₁, m₁⟩ := c₁
  obtain ⟨tasks₂, m₂⟩ := c₂
  obtain ⟨tasks, machines⟩ := configs
  dsimp only at tasks machines
  cases tasks with
  | nil => exact .inl rfl
  | @cons _ _ rest₁ rest₂ alike rest =>
    -- a computation that comes to an excused fault ends the first run
    have ends : ∀ {f : Failure} (m : Machine), L.excused₁ f.fault →
        ∃ f' m', env₁.unwind f rest₁ m = .halted (.error f') m' ∧ L.excused₁ f'.fault := by
      intro f m excused
      obtain ⟨f', m', excused', halts⟩ := exists_halted_of_excused₁ rest excused m
      exact ⟨f', m', halts, excused'⟩
    cases alike with
    | call c =>
      cases c with
      | function id l closure =>
        rcases envs.entryFits machines fits with fits | outgrows | ⟨fault, kept, excused⟩
        · exact .inl fits
        · exact .inr (.inl outgrows)
        · have halts := ends (f := fault) m₁ excused
          refine .inr (.inr ?_)
          simp only [Env.step, Env.proceed, Env.call, Bind.bind, EStateM.bind, Env.enter, kept]
          exact halts
      | _ => exact .inl rfl
    | @native r unaware taken =>
      have fits' : r.fits capacity env₁.store (Env.held rest₁) taken m₁ = true := fits
      rcases unaware.fits never envs.store.text _ taken machines fits' with
        fits | ⟨f, m, fails, excused⟩
      · refine .inl ?_
        rw [← funext (held_eq rest)] at fits
        exact fits
      · have halts := ends m excused
        refine .inr (.inr ?_)
        simp only [Env.step, fails]
        exact halts
    | construct r =>
      rcases envs.instanceFits never machines fits rest₁ with
        fits | outgrows | ⟨f, m, fails, excused⟩
      · exact .inl fits
      · exact .inr (.inl outgrows)
      · have halts := ends m excused
        refine .inr (.inr ?_)
        simp only [Env.step, Env.proceed, fails]
        exact halts
    | _ => exact .inl rfl

/-! ## Runs -/

/-- What the second run comes to is alike what the first one comes to, unless that ends before with a fault
that is excused. -/
theorem Configs.steps (configs : L.Configs c₁ c₂)
    (unaware : ∀ c fn, env₁.Steps c₁ c → c.Starts env₁ fn → L.Unaware (env₁.routine fn))
    {d₂ : Config} (steps : env₂.Steps c₂ d₂) :
    (∃ d₁, env₁.Steps c₁ d₁ ∧ L.Configs d₁ d₂) ∨
      ∃ last f m, env₁.Steps c₁ last ∧ env₁.step last = .halted (.error f) m ∧ L.excused₁ f.fault := by
  induction steps with
  | refl => exact .inl ⟨c₁, .refl c₁, configs⟩
  | @tail d₂ e₂ _ next ih =>
    rcases ih with ⟨d₁, steps₁, alike⟩ | excused
    swap
    · exact .inr excused
    have statuses := alike.step envs fun fn => unaware d₁ fn steps₁
    rw [next] at statuses
    generalize next₁ : env₁.step d₁ = status₁ at statuses
    cases statuses with
    | running tasks machines => exact .inl ⟨_, steps₁.tail next₁, tasks, machines⟩
    | @excused₁ f m excused _ => exact .inr ⟨d₁, f, m, steps₁, next₁, excused⟩

/-- The capacity suffices for both runs if it does for the first one, unless a lambda outgrows it in the
second one or the first one ends with a fault that is excused. -/
theorem Configs.ample (configs : L.Configs c₁ c₂) (never : ∀ f, ¬ L.excused₂ f)
    (unaware : ∀ c fn, env₁.Steps c₁ c → c.Starts env₁ fn → L.Unaware (env₁.routine fn))
    (ends : ∀ last f m, env₁.Steps c₁ last → env₁.step last = .halted (.error f) m →
      ¬ L.excused₁ f.fault)
    (ample : env₁.Ample capacity c₁) (within : ¬ L.Outgrows env₁.store env₂.store capacity) :
    env₂.Ample capacity c₂ := by
  intro d₂ steps₂
  rcases configs.steps envs unaware steps₂ with
    ⟨d₁, steps₁, alike⟩ | ⟨last, f, m, steps₁, halts, excused⟩
  · rcases alike.fits envs never (ample d₁ steps₁) with fits | outgrows | ⟨f, m, halts, excused⟩
    · exact fits
    · exact absurd outgrows within
    · exact absurd excused (ends d₁ f m steps₁ halts)
  · exact absurd excused (ends last f m steps₁ halts)

end

end Likeness

end PlotMachine
