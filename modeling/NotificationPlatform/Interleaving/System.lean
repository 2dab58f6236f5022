import NotificationPlatform.Interleaving.Program

/-!
# Interleaved threads, their runs, and invariants of runs

A `Machine` gives the operations of an interface a meaning on a shared world. A `System` is that
world with any number of threads in it, each some way through the program of its request, and the
trace of every operation performed so far. One step starts a thread, lets one thread perform one
operation, crashes a thread, or lets something outside the threads act on the world. Nothing
restricts the order of steps, so a statement about every run is a statement about every
interleaving and every crash point.

A `Discipline` is a typestate that every program of the machine conforms to. The phase of a thread
is then a function of the trace, and `Discipline.advanced` hands a proof about runs what a step of
a thread can do without looking at the program the thread runs.
-/

namespace Interleaving

variable {I : Interface}

/-- The meaning of an interface. An operation runs against the world and a choice of the
environment; `none` is an operation that this choice cannot answer, or that raises. -/
structure Machine (I : Interface) where
  World : Type
  Choice : Type
  Request : Type
  Result : Type
  Event : Type
  exec : World → (o : I.Op) → Choice → Option (I.Ret o × World)
  program : Request → Prog I Result
  outside : World → Event → Option World

/-- One operation a thread performed, with its answer. -/
structure Performed (I : Interface) where
  thread : Nat
  op : I.Op
  ret : I.Ret op

inductive Status (I : Interface) (α : Type) where
  | running (rest : Prog I α)
  | crashed

structure Thread (M : Machine I) where
  request : M.Request
  status : Status I M.Result

/-- The world, the threads, and what they performed, most recent first. -/
structure System (M : Machine I) where
  world : M.World
  threads : Nat → Option (Thread M)
  trace : List (Performed I)

inductive Label (M : Machine I) where
  | spawn (thread : Nat) (request : M.Request)
  | advance (thread : Nat) (choice : M.Choice)
  | crash (thread : Nat)
  | outside (event : M.Event)

namespace System

variable {M : Machine I}

/-- A world in which nothing was started yet. -/
def start (w : M.World) : System M := ⟨w, fun _ => none, []⟩

/-- The system after thread `i` performed `o`, was answered `r` and was left with `rest`. -/
def record (s : System M) (i : Nat) (request : M.Request) (o : I.Op) (r : I.Ret o)
    (rest : Prog I M.Result) (w : M.World) : System M :=
  { world := w
    threads := Function.update s.threads i (some ⟨request, .running rest⟩)
    trace := ⟨i, o, r⟩ :: s.trace }

def step (s : System M) : Label M → Option (System M)
  | .spawn i request =>
    match s.threads i with
    | none => some { s with
        threads := Function.update s.threads i (some ⟨request, .running (M.program request)⟩) }
    | some _ => none
  | .advance i choice =>
    match s.threads i with
    | some ⟨request, .running (.perform o next)⟩ =>
      match M.exec s.world o choice with
      | some (r, w) => some (s.record i request o r (next r) w)
      | none => none
    | _ => none
  | .crash i =>
    match s.threads i with
    | some ⟨request, .running (.perform _ _)⟩ => some { s with
        threads := Function.update s.threads i (some ⟨request, .crashed⟩) }
    | _ => none
  | .outside event => (M.outside s.world event).map fun w => { s with world := w }

/-- Several labels in a row. -/
def steps (s : System M) : List (Label M) → Option (System M)
  | [] => some s
  | l :: ls => (s.step l).bind fun s' => s'.steps ls

/-- The system after several labels; where one of them is not possible, nothing happens. -/
def after (s : System M) (ls : List (Label M)) : System M := (s.steps ls).getD s

theorem step_spawn {s s' : System M} {i : Nat} {request : M.Request} :
    s.step (.spawn i request) = some s' ↔ s.threads i = none ∧ s' = { s with
      threads := Function.update s.threads i (some ⟨request, .running (M.program request)⟩) } := by
  constructor
  · intro h
    simp only [step] at h
    split at h
    · rename_i hi
      exact ⟨hi, (Option.some.inj h).symm⟩
    · cases h
  · rintro ⟨hi, rfl⟩
    simp only [step, hi]

theorem step_advance {s s' : System M} {i : Nat} {choice : M.Choice} :
    s.step (.advance i choice) = some s' ↔
      ∃ request o next r w, s.threads i = some ⟨request, .running (.perform o next)⟩ ∧
        M.exec s.world o choice = some (r, w) ∧ s' = s.record i request o r (next r) w := by
  constructor
  · intro h
    simp only [step] at h
    split at h
    · rename_i request o next hi
      split at h
      · rename_i r w hw
        exact ⟨request, o, next, r, w, hi, hw, (Option.some.inj h).symm⟩
      · cases h
    · cases h
  · rintro ⟨request, o, next, r, w, hi, hw, rfl⟩
    simp only [step, hi, hw]

theorem step_crash {s s' : System M} {i : Nat} :
    s.step (.crash i) = some s' ↔
      ∃ request o next, s.threads i = some ⟨request, .running (.perform o next)⟩ ∧
        s' = { s with threads := Function.update s.threads i (some ⟨request, .crashed⟩) } := by
  constructor
  · intro h
    simp only [step] at h
    split at h
    · rename_i request o next hi
      exact ⟨request, o, next, hi, (Option.some.inj h).symm⟩
    · cases h
  · rintro ⟨request, o, next, hi, rfl⟩
    simp only [step, hi]

theorem step_outside {s s' : System M} {event : M.Event} :
    s.step (.outside event) = some s' ↔
      ∃ w, M.outside s.world event = some w ∧ s' = { s with world := w } := by
  constructor
  · intro h
    obtain ⟨w, hw, rfl⟩ := Option.map_eq_some_iff.1 h
    exact ⟨w, hw, rfl⟩
  · rintro ⟨w, hw, rfl⟩
    simp only [step, hw, Option.map_some]

/-- What thread `i` performed, most recent first. -/
def history (s : System M) (i : Nat) : List (Performed I) := s.trace.filter (·.thread = i)

@[simp] theorem history_record_self (s : System M) (i : Nat) (request : M.Request) (o : I.Op)
    (r : I.Ret o) (rest : Prog I M.Result) (w : M.World) :
    (s.record i request o r rest w).history i = ⟨i, o, r⟩ :: s.history i := by
  simp [history, record]

@[simp] theorem history_record_other (s : System M) {i j : Nat} (hij : j ≠ i)
    (request : M.Request) (o : I.Op) (r : I.Ret o) (rest : Prog I M.Result) (w : M.World) :
    (s.record i request o r rest w).history j = s.history j := by
  simp [history, record, Ne.symm hij]

/-- The thread has stopped taking steps without finishing. -/
def Crashed (s : System M) (i : Nat) : Prop :=
  ∃ request, s.threads i = some ⟨request, .crashed⟩

/-- The thread has returned `a`. -/
def Returned (s : System M) (i : Nat) (a : M.Result) : Prop :=
  ∃ request, s.threads i = some ⟨request, .running (.done a)⟩

/-- The step from `s` to `s'` is `p`. -/
def Performs (s : System M) (l : Label M) (p : Performed I) (s' : System M) : Prop :=
  s.step l = some s' ∧ s'.trace = p :: s.trace

/-- The request thread `i` serves. -/
def requestOf (s : System M) (i : Nat) : Option M.Request := (s.threads i).map (·.request)

/-- The operation thread `i` performs next. -/
def nextOp (s : System M) (i : Nat) : Option I.Op :=
  match s.threads i with
  | some ⟨_, .running (.perform o _)⟩ => some o
  | _ => none

/-- What is left of a program once it was given these answers, most recent first. -/
inductive Left {α : Type} (p : Prog I α) : List (Performed I) → Prog I α → Prop where
  | all : Left p [] p
  | performed {older : List (Performed I)} {i : Nat} {o : I.Op} {k : I.Ret o → Prog I α}
      (r : I.Ret o) : Left p older (.perform o k) → Left p (⟨i, o, r⟩ :: older) (k r)

theorem Left.unique {α : Type} {p rest rest' : Prog I α} {history : List (Performed I)}
    (h : Left p history rest) (h' : Left p history rest') : rest = rest' := by
  induction h generalizing rest' with
  | all =>
    cases h'
    rfl
  | performed r _ ih =>
    cases h' with
    | performed _ h' =>
      cases ih h'
      rfl

/-- Thread `i` performs `o` next, or would have if it had not crashed. -/
def Due (s : System M) (i : Nat) (o : I.Op) : Prop :=
  ∃ t k, s.threads i = some t ∧ Left (M.program t.request) (s.history i) (.perform o k)

end System

namespace System

variable {M : Machine I} {s s' : System M}

/-- A thread serves the request it was started for. -/
theorem requestOf_step {l : Label M} (h : s.step l = some s') {i : Nat} {request : M.Request}
    (hi : s.requestOf i = some request) : s'.requestOf i = some request := by
  obtain ⟨t, ht, rfl⟩ := Option.map_eq_some_iff.1 hi
  cases l with
  | spawn j request' =>
    obtain ⟨hj, rfl⟩ := step_spawn.1 h
    have hij : i ≠ j := by
      rintro rfl
      exact absurd (hj.symm.trans ht) nofun
    simp only [requestOf, Function.update_of_ne hij, ht, Option.map_some]
  | advance j choice =>
    obtain ⟨request', o, next, r, w, hj, -, rfl⟩ := step_advance.1 h
    by_cases hij : i = j
    · subst hij
      cases hj.symm.trans ht
      simp only [requestOf, record, Function.update_self, Option.map_some]
    · simp only [requestOf, record, Function.update_of_ne hij, ht, Option.map_some]
  | crash j =>
    obtain ⟨request', o, next, hj, rfl⟩ := step_crash.1 h
    by_cases hij : i = j
    · subst hij
      cases hj.symm.trans ht
      simp only [requestOf, Function.update_self, Option.map_some]
    · simp only [requestOf, Function.update_of_ne hij, ht, Option.map_some]
  | outside event =>
    obtain ⟨w, -, rfl⟩ := step_outside.1 h
    exact hi

/-- What one operation did to the world. -/
theorem Performs.exec {l : Label M} {i : Nat} {o : I.Op} {r : I.Ret o}
    (h : s.Performs l ⟨i, o, r⟩ s') :
    ∃ c, l = .advance i c ∧ M.exec s.world o c = some (r, s'.world) := by
  obtain ⟨hs, htrace⟩ := h
  cases l with
  | spawn j request =>
    obtain ⟨-, rfl⟩ := step_spawn.1 hs
    exact absurd htrace.symm (List.cons_ne_self _ _)
  | advance j c =>
    obtain ⟨request, o', k, r', w, -, he, rfl⟩ := step_advance.1 hs
    cases htrace
    exact ⟨c, rfl, he⟩
  | crash j =>
    obtain ⟨request, o', k, -, rfl⟩ := step_crash.1 hs
    exact absurd htrace.symm (List.cons_ne_self _ _)
  | outside event =>
    obtain ⟨w, -, rfl⟩ := step_outside.1 hs
    exact absurd htrace.symm (List.cons_ne_self _ _)

theorem Performs.nextOp {l : Label M} {i : Nat} {o : I.Op} {r : I.Ret o}
    (h : s.Performs l ⟨i, o, r⟩ s') : s.nextOp i = some o := by
  obtain ⟨c, rfl, -⟩ := h.exec
  obtain ⟨request, o', k, r', w, hi, -, rfl⟩ := step_advance.1 h.1
  cases h.2
  simp only [System.nextOp, hi]

/-- A thread that is started by no step of this kind was not started. -/
theorem threads_step {l : Label M} (h : s.step l = some s') {i : Nat} (hi : s.threads i = none)
    (hspawn : ∀ request, l ≠ .spawn i request) : s'.threads i = none := by
  cases l with
  | spawn j request =>
    obtain ⟨-, rfl⟩ := step_spawn.1 h
    have hij : i ≠ j := by
      rintro rfl
      exact hspawn request rfl
    exact (Function.update_of_ne hij _ _).trans hi
  | advance j choice =>
    obtain ⟨_, _, _, _, _, hj, -, rfl⟩ := step_advance.1 h
    have hij : i ≠ j := by
      rintro rfl
      cases hj.symm.trans hi
    exact (Function.update_of_ne hij _ _).trans hi
  | crash j =>
    obtain ⟨_, _, _, hj, rfl⟩ := step_crash.1 h
    have hij : i ≠ j := by
      rintro rfl
      cases hj.symm.trans hi
    exact (Function.update_of_ne hij _ _).trans hi
  | outside event =>
    obtain ⟨w, -, rfl⟩ := step_outside.1 h
    exact hi

end System

/-- The label starts no thread from the bound on. -/
def Label.startsBelow {M : Machine I} (bound : Nat) : Label M → Bool
  | .spawn i _ => i < bound
  | _ => true

/-! ## Runs -/

section Runs

variable {M : Machine I}

/-- `Run P s s'`: some sequence of steps leads from `s` to `s'`, and each of them satisfies `P` in
the state it is taken from. -/
inductive Run (P : System M → Label M → Prop) (s : System M) : System M → Prop where
  | refl : Run P s s
  | tail {s₁ s₂ : System M} {l : Label M} :
      Run P s s₁ → P s₁ l → s₁.step l = some s₂ → Run P s s₂

/-- Every step is permitted. -/
def Any (_ : System M) (_ : Label M) : Prop := True

namespace Run

variable {P Q : System M → Label M → Prop} {s s₁ s₂ : System M}

theorem mono (hPQ : ∀ s l, P s l → Q s l) (h : Run P s s₁) : Run Q s s₁ := by
  induction h with
  | refl => exact .refl
  | tail _ hp hs ih => exact .tail ih (hPQ _ _ hp) hs

theorem any (h : Run P s s₁) : Run Any s s₁ := h.mono fun _ _ _ => trivial

theorem trans (h : Run P s s₁) (h' : Run P s₁ s₂) : Run P s s₂ := by
  induction h' with
  | refl => exact h
  | tail _ hp hs ih => exact .tail ih hp hs

/-- What holds at the start and is preserved by every permitted step holds after every run. -/
theorem invariant {Inv : System M → Prop} (h0 : Inv s)
    (hstep : ∀ s₁ l s₂, Run P s s₁ → Inv s₁ → P s₁ l → s₁.step l = some s₂ → Inv s₂)
    (h : Run P s s₁) : Inv s₁ := by
  induction h with
  | refl => exact h0
  | tail hr hp hs ih => exact hstep _ _ _ hr ih hp hs

/-- A thread serves one request throughout. -/
theorem serves {i : Nat} {request : M.Request} (h : Run P s s₁)
    (hi : s.requestOf i = some request) : Run (fun s _ => s.requestOf i = some request) s s₁ := by
  induction h with
  | refl => exact .refl
  | tail hr _ hs ih =>
    exact .tail ih (hr.invariant hi fun _ _ _ _ hserves _ => (System.requestOf_step · hserves)) hs

/-- Labels that can be taken one after another, each permitted, are a run. -/
theorem of_steps {ls : List (Label M)}
    (hP : ∀ pre l post, ls = pre ++ l :: post → ∀ s₁, s.steps pre = some s₁ → P s₁ l)
    (h : s.steps ls = some s₂) : Run P s s₂ := by
  induction ls generalizing s with
  | nil => cases h; exact .refl
  | cons l ls ih =>
    obtain ⟨s₁, h₁, h₂⟩ := Option.bind_eq_some_iff.1 h
    have hl : P s l := hP [] l ls rfl s rfl
    refine (Run.tail .refl hl h₁).trans (ih ?_ h₂)
    intro pre l' post e s' hs'
    refine hP (l :: pre) l' post (by rw [e]; rfl) s' ?_
    simp only [System.steps, h₁, Option.bind_some]
    exact hs'

theorem any_after (ls : List (Label M)) : Run Any s (s.after ls) := by
  unfold System.after
  cases h : s.steps ls with
  | none => exact .refl
  | some s₁ => exact of_steps (fun _ _ _ _ _ _ => trivial) h

/-- The trace only grows. -/
theorem trace_suffix (h : Run P s s₁) : s.trace <:+ s₁.trace := by
  induction h with
  | refl => exact List.suffix_refl _
  | @tail s₁ s₂ l _ _ hs ih =>
    refine ih.trans ?_
    cases l with
    | spawn i request =>
      obtain ⟨_, rfl⟩ := System.step_spawn.1 hs
      exact List.suffix_refl _
    | advance i choice =>
      obtain ⟨_, _, _, _, _, _, _, rfl⟩ := System.step_advance.1 hs
      exact List.suffix_cons _ _
    | crash i =>
      obtain ⟨_, _, _, _, rfl⟩ := System.step_crash.1 hs
      exact List.suffix_refl _
    | outside event =>
      obtain ⟨_, _, rfl⟩ := System.step_outside.1 hs
      exact List.suffix_refl _

/-- A run whose trace shows nothing a guard speaks of satisfies the guard besides. -/
theorem of_trace {G : Performed I → Prop} (h : Run P s s₁) (hG : ∀ p ∈ s₁.trace, ¬ G p)
    (hQ : ∀ s l, (∀ s' p, s.step l = some s' → s'.trace = p :: s.trace → ¬ G p) → Q s l) :
    Run (fun s l => P s l ∧ Q s l) s s₁ := by
  induction h with
  | refl => exact .refl
  | @tail s₁ s₂ l hr hp hs ih =>
    have hstep : Run Any s₁ s₂ := .tail .refl trivial hs
    have hsuffix : s₁.trace <:+ s₂.trace := trace_suffix hstep
    refine .tail (ih fun p hp => hG p (hsuffix.subset hp)) ⟨hp, hQ _ _ fun s' p hs' ht => ?_⟩ hs
    cases hs.symm.trans hs'
    exact hG p (by rw [ht]; exact List.mem_cons_self)

end Run

/-- `Logged P f s log s'`: a run from `s` to `s'` that performed `log`, most recent first, each
operation with what `f` says of the world it was performed in. -/
inductive Logged {τ : Type} (P : System M → Label M → Prop) (f : M.World → τ) (s : System M) :
    List (Performed I × τ) → System M → Prop where
  | refl : Logged P f s [] s
  | quiet {log : List (Performed I × τ)} {s₁ s₂ : System M} {l : Label M} :
      Logged P f s log s₁ → P s₁ l → s₁.step l = some s₂ → s₂.trace = s₁.trace →
        Logged P f s log s₂
  | performed {log : List (Performed I × τ)} {s₁ s₂ : System M} {l : Label M} {p : Performed I} :
      Logged P f s log s₁ → P s₁ l → s₁.Performs l p s₂ →
        Logged P f s ((p, f s₁.world) :: log) s₂

namespace Logged

variable {τ : Type} {P Q : System M → Label M → Prop} {f : M.World → τ} {s s₁ : System M}
  {log : List (Performed I × τ)}

theorem run (h : Logged P f s log s₁) : Run P s s₁ := by
  induction h with
  | refl => exact .refl
  | quiet _ hp hs _ ih => exact .tail ih hp hs
  | performed _ hp hs ih => exact .tail ih hp hs.1

theorem trace (h : Logged P f s log s₁) : s₁.trace = log.map (·.1) ++ s.trace := by
  induction h with
  | refl => rfl
  | quiet _ _ _ ht ih => rw [ht, ih]
  | performed _ _ hs ih => rw [hs.2, ih, List.map_cons, List.cons_append]

theorem mono (hPQ : ∀ s l, P s l → Q s l) (h : Logged P f s log s₁) : Logged Q f s log s₁ := by
  induction h with
  | refl => exact .refl
  | quiet _ hp hs ht ih => exact .quiet ih (hPQ _ _ hp) hs ht
  | performed _ hp hs ih => exact .performed ih (hPQ _ _ hp) hs

end Logged

/-- What the labels log, most recent first; where one of them is not possible, the log ends. -/
def System.logs {τ : Type} (f : M.World → τ) (s : System M) (log : List (Performed I × τ)) :
    List (Label M) → List (Performed I × τ)
  | [] => log
  | .advance i choice :: ls =>
    match s.step (.advance i choice) with
    | some s' => s'.logs f ((s'.trace.head?.map fun p => (p, f s.world)).toList ++ log) ls
    | none => log
  | l :: ls =>
    match s.step l with
    | some s' => s'.logs f log ls
    | none => log

/-- The labels can be taken one after the other, each step passing the check. -/
def checksEach (b : System M → Label M → Bool) : System M → List (Label M) → Bool
  | _, [] => true
  | s, l :: ls => b s l && (s.step l).any fun s' => checksEach b s' ls

theorem Run.steps_of_checksEach {b : System M → Label M → Bool} {s : System M}
    {ls : List (Label M)} (h : checksEach b s ls = true) :
    ∃ s', s.steps ls = some s' ∧ Run (fun s l => b s l = true) s s' := by
  induction ls generalizing s with
  | nil => exact ⟨s, rfl, .refl⟩
  | cons l ls ih =>
    simp only [checksEach, Bool.and_eq_true] at h
    obtain ⟨s₁, hs₁, hrest⟩ := (Option.any_eq_true _ _).1 h.2
    obtain ⟨s', hs', hr⟩ := ih hrest
    refine ⟨s', ?_, (Run.tail .refl h.1 hs₁).trans hr⟩
    simp only [System.steps, hs₁, Option.bind_some, hs']

theorem Run.of_checksEach {b : System M → Label M → Bool} {s : System M} {ls : List (Label M)}
    (h : checksEach b s ls = true) : Run (fun s l => b s l = true) s (s.after ls) := by
  obtain ⟨s', hs', hr⟩ := Run.steps_of_checksEach h
  simp only [System.after, hs', Option.getD_some]
  exact hr

theorem Logged.of_checksEach {τ : Type} {b : System M → Label M → Bool} {f : M.World → τ}
    {s₀ s : System M} {log : List (Performed I × τ)} {ls : List (Label M)}
    (h₀ : Logged (fun s l => b s l = true) f s₀ log s) (h : checksEach b s ls = true) :
    Logged (fun s l => b s l = true) f s₀ (s.logs f log ls) (s.after ls) := by
  induction ls generalizing s log with
  | nil => exact h₀
  | cons l ls ih =>
    simp only [checksEach, Bool.and_eq_true] at h
    obtain ⟨s₁, hs₁, hrest⟩ := (Option.any_eq_true _ _).1 h.2
    have hl := h.1
    have hafter : s.after (l :: ls) = s₁.after ls := by
      obtain ⟨s', hs', -⟩ := Run.steps_of_checksEach hrest
      simp only [System.after, System.steps, hs₁, Option.bind_some, hs', Option.getD_some]
    rw [hafter]
    cases l with
    | advance i choice =>
      obtain ⟨request, o, next, r, w, hi, hw, rfl⟩ := System.step_advance.1 hs₁
      have hp := h₀.performed hl (⟨hs₁, rfl⟩ : s.Performs _ ⟨i, o, r⟩ _)
      simp only [System.logs, hs₁]
      exact ih hp hrest
    | spawn i request =>
      have ht : s₁.trace = s.trace := by
        obtain ⟨-, rfl⟩ := System.step_spawn.1 hs₁
        rfl
      simp only [System.logs, hs₁]
      exact ih (h₀.quiet hl hs₁ ht) hrest
    | crash i =>
      have ht : s₁.trace = s.trace := by
        obtain ⟨_, _, _, -, rfl⟩ := System.step_crash.1 hs₁
        rfl
      simp only [System.logs, hs₁]
      exact ih (h₀.quiet hl hs₁ ht) hrest
    | outside event =>
      have ht : s₁.trace = s.trace := by
        obtain ⟨_, -, rfl⟩ := System.step_outside.1 hs₁
        rfl
      simp only [System.logs, hs₁]
      exact ih (h₀.quiet hl hs₁ ht) hrest

/-- The labels can be taken one after the other, each in a state that passes the check. -/
def checks (b : System M → Bool) : System M → List (Label M) → Bool
  | _, [] => true
  | s, l :: ls => b s && (s.step l).any fun s' => checks b s' ls

theorem checks_eq_checksEach {b : System M → Bool} {s : System M} {ls : List (Label M)} :
    checks b s ls = checksEach (fun s _ => b s) s ls := by
  induction ls generalizing s with
  | nil => rfl
  | cons l ls ih => simp only [checks, checksEach, ih]

theorem Run.of_checks {b : System M → Bool} {s : System M} {ls : List (Label M)}
    (h : checks b s ls = true) : Run (fun s _ => b s = true) s (s.after ls) :=
  Run.of_checksEach (checks_eq_checksEach ▸ h)

/-- Where only threads below a bound were started, there are no others. -/
theorem Run.threads_eq_none {P : System M → Label M → Prop} {s s' : System M} {bound : Nat}
    (h : Run P s s') (hP : ∀ s l, P s l → l.startsBelow bound = true)
    (hs : ∀ i, bound ≤ i → s.threads i = none) : ∀ i, bound ≤ i → s'.threads i = none := by
  induction h with
  | refl => exact hs
  | tail _ hp hstep ih =>
    intro i hi
    refine System.threads_step hstep (ih i hi) ?_
    rintro request rfl
    have hlt : i < bound := of_decide_eq_true (hP _ _ hp)
    omega

/-- Every step taken by the labels satisfies `P` in the state it is taken from. -/
def Always (P : System M → Label M → Prop) : System M → List (Label M) → Prop
  | _, [] => True
  | s, l :: ls => ∀ s', s.step l = some s' → P s l ∧ Always P s' ls

/-- Labels that pass a check satisfy throughout what the check tells of the states they come to. -/
theorem always_of_checksEach {b : System M → Label M → Bool} {P : System M → Label M → Prop}
    {s : System M} {ls : List (Label M)} (h : checksEach b s ls = true)
    (hP : ∀ s' l, Run (fun s l => b s l = true) s s' → b s' l = true → P s' l) :
    Always P s ls := by
  induction ls generalizing s with
  | nil => trivial
  | cons l ls ih =>
    intro s' hs
    simp only [checksEach, hs, Option.any_some, Bool.and_eq_true] at h
    refine ⟨hP s l .refl h.1, ih h.2 fun s₁ l₁ hr => ?_⟩
    exact hP s₁ l₁ ((Run.tail .refl h.1 hs).trans hr)

/-- If two conditions on a step are equivalent wherever both held so far, a sequence of steps
satisfies one throughout exactly if it satisfies the other. -/
theorem always_iff {P Q : System M → Label M → Prop} {s : System M} (ls : List (Label M))
    (h : ∀ s₁ l s₂, Run (fun s l => P s l ∧ Q s l) s s₁ → s₁.step l = some s₂ →
      (P s₁ l ↔ Q s₁ l)) : Always P s ls ↔ Always Q s ls := by
  induction ls generalizing s with
  | nil => exact Iff.rfl
  | cons l ls ih =>
    refine forall₂_congr fun s' hs => ?_
    have hl := h s l s' .refl hs
    have hrest : P s l → Q s l → (Always P s' ls ↔ Always Q s' ls) := fun hp hq =>
      ih fun s₁ l₁ s₂ hr => h s₁ l₁ s₂ ((Run.tail .refl ⟨hp, hq⟩ hs).trans hr)
    constructor
    · rintro ⟨hp, hall⟩
      exact ⟨hl.1 hp, (hrest hp (hl.1 hp)).1 hall⟩
    · rintro ⟨hq, hall⟩
      exact ⟨hl.2 hq, (hrest (hl.2 hq) hq).2 hall⟩

end Runs

/-! ## Disciplines -/

namespace Typestate

/-- The phase reached from `q` by what was performed, most recent first. -/
def after (T : Typestate I) (q : T.Phase) : List (Performed I) → T.Phase
  | [] => q
  | p :: older => T.advance (T.after q older) p.op p.ret

end Typestate

/-- A typestate that every program of the machine conforms to. `Answers` is what is known of
every answer the machine gives. -/
structure Discipline (M : Machine I) extends Typestate I where
  initial : M.Request → Phase
  Answers : (o : I.Op) → I.Ret o → Prop
  Returns : M.Request → Phase → M.Result → Prop
  answers_exec : ∀ {w o c r w'}, M.exec w o c = some (r, w') → Answers o r
  conforms : ∀ request,
    Conforms toTypestate Answers (initial request) (M.program request) (Returns request)

namespace Discipline

variable {M : Machine I} (D : Discipline M)

/-- The phase of thread `i`, which its history determines; `none` before it is started. -/
def phase (s : System M) (i : Nat) : Option D.Phase :=
  (s.threads i).map fun t => D.after (D.initial t.request) (s.history i)

/-- Nothing was performed by a thread that was never started. -/
def Quiet (s : System M) : Prop := ∀ i, s.threads i = none → s.history i = []

theorem Quiet.requestOf {s : System M} (h : Quiet s) {e : Performed I} (he : e ∈ s.trace) :
    ∃ request, s.requestOf e.thread = some request := by
  cases ht : s.threads e.thread with
  | some t => exact ⟨t.request, by simp only [System.requestOf, ht, Option.map_some]⟩
  | none =>
    have hempty : s.history e.thread = [] := h e.thread ht
    have hmem : e ∈ s.history e.thread := List.mem_filter.2 ⟨he, by simp⟩
    rw [hempty] at hmem
    exact absurd hmem List.not_mem_nil

/-- Every running thread conforms to the rest of the discipline from its phase. -/
structure Disciplined (s : System M) : Prop where
  quiet : Quiet s
  residual : ∀ {i request rest}, s.threads i = some ⟨request, .running rest⟩ →
    Conforms D.toTypestate D.Answers (D.after (D.initial request) (s.history i)) rest
      (D.Returns request)

/-- What a step of thread `i` from `s` to `s'` did: one allowed operation, its effect on the
world, and the next phase of the thread. -/
structure Advanced (s s' : System M) (i : Nat) (choice : M.Choice) (o : I.Op) (r : I.Ret o)
    (q : D.Phase) : Prop where
  request : s'.requestOf i = s.requestOf i
  nextOp : s.nextOp i = some o
  allowed : D.Allows q o
  answered : D.Answers o r
  exec : M.exec s.world o choice = some (r, s'.world)
  before : D.phase s i = some q
  after : D.phase s' i = some (D.advance q o r)
  others : ∀ j, j ≠ i → D.phase s' j = D.phase s j
  threads : ∀ j, j ≠ i → s'.threads j = s.threads j
  running : ∃ request rest, s'.threads i = some ⟨request, .running rest⟩ ∧
    Conforms D.toTypestate D.Answers (D.advance q o r) rest (D.Returns request)
  trace : s'.trace = ⟨i, o, r⟩ :: s.trace

variable {D} {s s' : System M} {P : System M → Label M → Prop}

theorem disciplined_start (w : M.World) : D.Disciplined (System.start w) where
  quiet := fun _ _ => rfl
  residual := by intro i request rest h; cases h

theorem phase_eq {i : Nat} {request : M.Request} {status : Status I M.Result}
    (h : s.threads i = some ⟨request, status⟩) :
    D.phase s i = some (D.after (D.initial request) (s.history i)) := by
  simp only [phase, h, Option.map_some]

theorem Disciplined.step {l : Label M} (h : D.Disciplined s) (hs : s.step l = some s') :
    D.Disciplined s' := by
  cases l with
  | spawn i request =>
    obtain ⟨hi, rfl⟩ := System.step_spawn.1 hs
    refine ⟨fun j hj => ?_, fun {j request' rest} hj => ?_⟩
    · by_cases hji : j = i
      · subst hji; simp at hj
      · simp only [Function.update_of_ne hji] at hj
        exact h.quiet j hj
    · by_cases hji : j = i
      · subst hji
        simp only [Function.update_self, Option.some.injEq, Thread.mk.injEq,
          Status.running.injEq] at hj
        obtain ⟨rfl, rfl⟩ := hj
        have hq : s.history j = [] := h.quiet j hi
        change Conforms _ _ (D.after _ (s.history j)) _ _
        rw [hq]
        exact D.conforms request
      · simp only [Function.update_of_ne hji] at hj
        exact h.residual hj
  | advance i choice =>
    obtain ⟨request, o, next, r, w, hi, hw, rfl⟩ := System.step_advance.1 hs
    refine ⟨fun j hj => ?_, fun {j request' rest} hj => ?_⟩
    · by_cases hji : j = i
      · subst hji; simp [System.record] at hj
      · simp only [System.record, Function.update_of_ne hji] at hj
        rw [System.history_record_other _ hji]
        exact h.quiet j hj
    · by_cases hji : j = i
      · subst hji
        simp only [System.record, Function.update_self, Option.some.injEq, Thread.mk.injEq,
          Status.running.injEq] at hj
        obtain ⟨rfl, rfl⟩ := hj
        rw [System.history_record_self]
        exact (h.residual hi).2 r (D.answers_exec hw)
      · simp only [System.record, Function.update_of_ne hji] at hj
        rw [System.history_record_other _ hji]
        exact h.residual hj
  | crash i =>
    obtain ⟨request, o, next, hi, rfl⟩ := System.step_crash.1 hs
    refine ⟨fun j hj => ?_, fun {j request' rest} hj => ?_⟩
    · by_cases hji : j = i
      · subst hji; simp at hj
      · simp only [Function.update_of_ne hji] at hj
        exact h.quiet j hj
    · by_cases hji : j = i
      · subst hji; simp at hj
      · simp only [Function.update_of_ne hji] at hj
        exact h.residual hj
  | outside event =>
    obtain ⟨w, _, rfl⟩ := System.step_outside.1 hs
    exact ⟨h.quiet, h.residual⟩

theorem disciplined_run {w : M.World} (h : Run P (System.start w) s) : D.Disciplined s :=
  h.invariant (disciplined_start w) fun _ _ _ _ hd _ hs => hd.step hs

/-- What is left of a thread's program conforms to the rest of the discipline, whether the thread is
still running it or has crashed. -/
structure Remains (s : System M) (i : Nat) (t : Thread M) (rest : Prog I M.Result) : Prop where
  left : System.Left (M.program t.request) (s.history i) rest
  conforms : Conforms D.toTypestate D.Answers (D.after (D.initial t.request) (s.history i)) rest
    (D.Returns t.request)
  status : t.status = .running rest ∨ t.status = .crashed

theorem remains_run {w : M.World} (h : Run P (System.start w) s) {i : Nat} {t : Thread M}
    (ht : s.threads i = some t) : ∃ rest, D.Remains s i t rest := by
  induction h generalizing i t with
  | refl => cases ht
  | @tail s₁ s₂ l hr _ hs ih =>
    have hquiet := (disciplined_run (D := D) hr).quiet
    cases l with
    | spawn j request =>
      obtain ⟨hj, rfl⟩ := System.step_spawn.1 hs
      by_cases hij : i = j
      · subst hij
        simp only [Function.update_self, Option.some.injEq] at ht
        subst ht
        have hempty : s₁.history i = [] := hquiet i hj
        refine ⟨M.program request, ?_, ?_, .inl rfl⟩
        · change System.Left _ (s₁.history i) _
          rw [hempty]
          exact .all
        · change Conforms _ _ (D.after _ (s₁.history i)) _ _
          rw [hempty]
          exact D.conforms request
      · simp only [Function.update_of_ne hij] at ht
        obtain ⟨rest, h⟩ := ih ht
        exact ⟨rest, h.left, h.conforms, h.status⟩
    | advance j choice =>
      obtain ⟨request, o, next, r, w, hj, hw, rfl⟩ := System.step_advance.1 hs
      by_cases hij : i = j
      · subst hij
        simp only [System.record, Function.update_self, Option.some.injEq] at ht
        subst ht
        obtain ⟨rest, h⟩ := ih hj
        have hrest : rest = .perform o next := by
          rcases h.status with hstatus | hstatus <;> cases hstatus
          rfl
        subst hrest
        refine ⟨next r, ?_, ?_, .inl rfl⟩
        · rw [System.history_record_self]
          exact h.left.performed r
        · rw [System.history_record_self]
          exact h.conforms.2 r (D.answers_exec hw)
      · simp only [System.record, Function.update_of_ne hij] at ht
        obtain ⟨rest, h⟩ := ih ht
        refine ⟨rest, ?_, ?_, h.status⟩
        · rw [System.history_record_other _ hij]
          exact h.left
        · rw [System.history_record_other _ hij]
          exact h.conforms
    | crash j =>
      obtain ⟨request, o, next, hj, rfl⟩ := System.step_crash.1 hs
      by_cases hij : i = j
      · subst hij
        simp only [Function.update_self, Option.some.injEq] at ht
        subst ht
        obtain ⟨rest, h⟩ := ih hj
        exact ⟨rest, h.left, h.conforms, .inr rfl⟩
      · simp only [Function.update_of_ne hij] at ht
        obtain ⟨rest, h⟩ := ih ht
        exact ⟨rest, h.left, h.conforms, h.status⟩
    | outside event =>
      obtain ⟨w, -, rfl⟩ := System.step_outside.1 hs
      obtain ⟨rest, h⟩ := ih ht
      exact ⟨rest, h.left, h.conforms, h.status⟩

/-- The discipline that asks nothing. -/
def lax (M : Machine I) : Discipline M where
  Phase := Unit
  Allows _ _ := True
  advance _ _ _ := ()
  initial _ := ()
  Answers _ _ := True
  Returns _ _ _ := True
  answers_exec _ := trivial
  conforms request := by
    induction M.program request with
    | done a => trivial
    | perform o k ih => exact ⟨trivial, fun r _ => ih r⟩

/-- What a thread performed leads its program to what is left of it. -/
theorem left_run {w : M.World} (h : Run P (System.start w) s) {i : Nat} {request : M.Request}
    {rest : Prog I M.Result} (hi : s.threads i = some ⟨request, .running rest⟩) :
    System.Left (M.program request) (s.history i) rest := by
  obtain ⟨rest', hrest⟩ := remains_run (D := lax M) h hi
  rcases hrest.status with hstatus | hstatus <;> cases hstatus
  exact hrest.left

/-- What a thread performs next is allowed in the phase it is in. -/
theorem allowed_next {w : M.World} (h : Run P (System.start w) s) {i : Nat} {o : I.Op}
    (ho : s.nextOp i = some o) : ∃ q, D.phase s i = some q ∧ D.Allows q o := by
  unfold System.nextOp at ho
  split at ho
  · rename_i request o' next hi
    cases ho
    exact ⟨_, phase_eq hi, ((disciplined_run h).residual hi).1⟩
  · cases ho

/-- In a phase in which it may not return, a thread has an operation due, and an allowed one. -/
theorem due_run {w : M.World} (h : Run P (System.start w) s) {i : Nat} {q : D.Phase}
    (hq : D.phase s i = some q) (hreturns : ∀ request a, ¬ D.Returns request q a) :
    ∃ o, s.Due i o ∧ D.Allows q o := by
  obtain ⟨t, ht, rfl⟩ := Option.map_eq_some_iff.1 hq
  obtain ⟨rest, hrest⟩ := remains_run (D := D) h ht
  have hconforms := hrest.conforms
  cases rest with
  | done a => exact absurd hconforms (hreturns _ a)
  | perform o k => exact ⟨o, ⟨t, k, ht, hrest.left⟩, hconforms.1⟩

/-- What is due in a thread that has not crashed is what it performs next. -/
theorem nextOp_of_due (D : Discipline M) {w : M.World} (h : Run P (System.start w) s) {i : Nat} {o : I.Op}
    (hdue : s.Due i o) : s.nextOp i = some o ∨ s.Crashed i := by
  obtain ⟨⟨request, status⟩, k, ht, hleft⟩ := hdue
  obtain ⟨rest, hrest⟩ := remains_run (D := D) h ht
  cases hrest.left.unique hleft
  rcases hrest.status with hstatus | hstatus <;> cases hstatus
  · left
    simp only [System.nextOp, ht]
  · exact .inr ⟨request, ht⟩

/-- **What a thread's step does**, read off the discipline instead of the program. -/
theorem Disciplined.advanced (h : D.Disciplined s) {i : Nat} {choice : M.Choice}
    (hs : s.step (.advance i choice) = some s') : ∃ o r q, D.Advanced s s' i choice o r q := by
  obtain ⟨request, o, next, r, w, hi, hw, rfl⟩ := System.step_advance.1 hs
  have hc := h.residual hi
  have hself : (s.record i request o r (next r) w).threads i =
      some ⟨request, .running (next r)⟩ := by simp [System.record]
  have hother : ∀ j, j ≠ i → (s.record i request o r (next r) w).threads j = s.threads j :=
    fun j hj => by simp [System.record, hj]
  refine ⟨o, r, _, {
    request := by simp only [System.requestOf, hself, hi, Option.map_some]
    nextOp := by simp only [System.nextOp, hi]
    allowed := hc.1
    answered := D.answers_exec hw
    exec := hw
    before := phase_eq hi
    after := by rw [phase_eq hself, System.history_record_self]; rfl
    others := fun j hj => by
      simp only [phase, hother j hj, System.history_record_other _ hj]
    threads := hother
    running := ⟨request, next r, hself, hc.2 r (D.answers_exec hw)⟩
    trace := rfl }⟩

/-- Two disciplines of one machine see the same step. -/
theorem Disciplined.also {E : Discipline M} (h : E.Disciplined s) {i : Nat} {choice : M.Choice}
    {o : I.Op} {r : I.Ret o} {q : D.Phase} (hs : s.step (.advance i choice) = some s')
    (ha : D.Advanced s s' i choice o r q) : ∃ q', E.Advanced s s' i choice o r q' := by
  obtain ⟨o', r', q', ha'⟩ := h.advanced hs
  cases ha'.trace.symm.trans ha.trace
  exact ⟨q', ha'⟩

/-- What any step did to the phases, the world and the trace. -/
inductive Stepped (D : Discipline M) (s s' : System M) : Label M → Prop where
  | spawned {i : Nat} {request : M.Request} (fresh : D.phase s i = none)
      (phases : D.phase s' = Function.update (D.phase s) i (some (D.initial request)))
      (crashed : s'.Crashed = s.Crashed) (world : s'.world = s.world) (trace : s'.trace = s.trace) :
      Stepped D s s' (.spawn i request)
  | advanced {i : Nat} {choice : M.Choice} {o : I.Op} {r : I.Ret o} {q : D.Phase}
      (phases : D.phase s' = Function.update (D.phase s) i (some (D.advance q o r)))
      (crashed : s'.Crashed = s.Crashed) (live : ¬ s.Crashed i)
      (step : D.Advanced s s' i choice o r q) : Stepped D s s' (.advance i choice)
  | crashed {i : Nat} (phases : D.phase s' = D.phase s)
      (crashed : ∀ j, s'.Crashed j ↔ s.Crashed j ∨ j = i) (world : s'.world = s.world)
      (trace : s'.trace = s.trace) : Stepped D s s' (.crash i)
  | outside {event : M.Event} (phases : D.phase s' = D.phase s) (crashed : s'.Crashed = s.Crashed)
      (world : M.outside s.world event = some s'.world) (trace : s'.trace = s.trace) :
      Stepped D s s' (.outside event)

theorem crashed_update {i : Nat} {t : Thread M} (h : ∀ request, t ≠ ⟨request, .crashed⟩)
    (hi : ∀ request, s.threads i ≠ some ⟨request, .crashed⟩) {w : M.World}
    {trace : List (Performed I)} (j : Nat) :
    (System.mk w (Function.update s.threads i (some t)) trace).Crashed j ↔ s.Crashed j := by
  by_cases hji : j = i
  · subst hji
    simp only [System.Crashed, Function.update_self, Option.some.injEq]
    constructor
    · rintro ⟨request, hr⟩
      exact absurd hr (h request)
    · rintro ⟨request, hr⟩
      exact absurd hr (hi request)
  · simp only [System.Crashed, Function.update_of_ne hji]

/-- Every step of a disciplined system is one of four kinds. -/
theorem Disciplined.stepped (h : D.Disciplined s) {l : Label M} (hs : s.step l = some s') :
    D.Stepped s s' l := by
  cases l with
  | spawn i request =>
    obtain ⟨hi, rfl⟩ := System.step_spawn.1 hs
    refine .spawned (by simp only [phase, hi, Option.map_none]) (funext fun j => ?_)
      (funext fun j => propext ?_) rfl rfl
    · by_cases hji : j = i
      · subst hji
        have hq : s.history j = [] := h.quiet j hi
        simp only [phase, Function.update_self, Option.map_some]
        change some (D.after _ (s.history j)) = _
        rw [hq]
        rfl
      · simp only [phase, Function.update_of_ne hji]
        rfl
    · exact crashed_update (by intro _ h; cases h) (by intro _ h; rw [hi] at h; cases h) j
  | advance i choice =>
    obtain ⟨o, r, q, ha⟩ := h.advanced hs
    obtain ⟨request, o', next, r', w, hi, hw, rfl⟩ := System.step_advance.1 hs
    have hlive : ¬ s.Crashed i := by
      rintro ⟨request', hc⟩
      rw [hi] at hc
      cases hc
    refine .advanced (funext fun j => ?_) (funext fun j => propext ?_) hlive ha
    · by_cases hji : j = i
      · subst hji
        rw [Function.update_self]
        exact ha.after
      · rw [Function.update_of_ne hji]
        exact ha.others j hji
    · exact crashed_update (by intro _ h; cases h) (fun request' hc => hlive ⟨request', hc⟩) j
  | crash i =>
    obtain ⟨request, o, next, hi, rfl⟩ := System.step_crash.1 hs
    refine .crashed (funext fun j => ?_) (fun j => ?_) rfl rfl
    · by_cases hji : j = i
      · subst hji
        simp only [phase, Function.update_self, hi, Option.map_some]
        rfl
      · simp only [phase, Function.update_of_ne hji]
        rfl
    · by_cases hji : j = i
      · subst hji
        simp [System.Crashed]
      · simp [System.Crashed, hji]
  | outside event =>
    obtain ⟨w, hw, rfl⟩ := System.step_outside.1 hs
    exact .outside rfl rfl hw rfl

/-- What one operation of a thread did. -/
theorem Disciplined.performs (h : D.Disciplined s) {l : Label M} {i : Nat} {o : I.Op}
    {r : I.Ret o} (hp : s.Performs l ⟨i, o, r⟩ s') : ∃ choice q, l = .advance i choice ∧
      D.Advanced s s' i choice o r q ∧
      D.phase s' = Function.update (D.phase s) i (some (D.advance q o r)) := by
  obtain ⟨hs, ht⟩ := hp
  cases h.stepped hs with
  | spawned _ _ _ _ trace | crashed _ _ _ trace | outside _ _ _ trace =>
    exact absurd (ht.symm.trans trace) (List.cons_ne_self _ _)
  | advanced phases crashed live step =>
    cases step.trace.symm.trans ht
    exact ⟨_, _, rfl, step, phases⟩

/-- What holds at the start and is kept by whatever the discipline lets threads do, and by every
event, holds of the phases and the world after every run. -/
theorem run_invariant (Inv : (Nat → Option D.Phase) → M.World → Prop) {w : M.World}
    (hstart : Inv (fun _ => none) w)
    (hspawn : ∀ {ph w i} request, Inv ph w → ph i = none →
      Inv (Function.update ph i (some (D.initial request))) w)
    (hadvance : ∀ {ph w w' i o r choice q}, Inv ph w → ph i = some q → D.Allows q o →
      D.Answers o r → M.exec w o choice = some (r, w') →
      Inv (Function.update ph i (some (D.advance q o r))) w')
    (houtside : ∀ {ph w w' event}, Inv ph w → M.outside w event = some w' → Inv ph w')
    (h : Run P (System.start w) s) : Inv (D.phase s) s.world := by
  induction h with
  | refl => exact hstart
  | @tail s₁ s₂ l hr _ hs hi =>
    cases (disciplined_run hr).stepped hs with
    | spawned fresh phases crashed world trace =>
      rw [phases, world]
      exact hspawn _ hi fresh
    | advanced phases crashed live step =>
      rw [phases]
      exact hadvance hi step.before step.allowed step.answered step.exec
    | crashed phases crashed world trace =>
      rw [phases, world]
      exact hi
    | outside phases crashed world trace =>
      rw [phases]
      exact houtside hi world

/-- What holds of the phase a request starts in, and is kept by whatever the discipline allows, holds
of the phase of every call of that request. -/
theorem run_phases (K : M.Request → D.Phase → Prop) {w : M.World}
    (hinitial : ∀ request, K request (D.initial request))
    (hadvance : ∀ {request q o r}, K request q → D.Allows q o → D.Answers o r →
      K request (D.advance q o r))
    (h : Run P (System.start w) s) {i : Nat} {request : M.Request} {q : D.Phase}
    (hi : s.requestOf i = some request) (hq : D.phase s i = some q) : K request q := by
  induction h generalizing request q with
  | refl => cases hi
  | @tail s₁ s₂ l hr _ hs ih =>
    have hold : ∀ {request'}, s₁.requestOf i = some request' → request' = request := fun h =>
      Option.some.inj ((System.requestOf_step hs h).symm.trans hi)
    have hbefore : ∀ {q'}, D.phase s₁ i = some q' → K request q' := by
      intro q' hq'
      obtain ⟨t, ht, -⟩ := Option.map_eq_some_iff.1 hq'
      have hrequest : s₁.requestOf i = some t.request := by
        simp only [System.requestOf, ht, Option.map_some]
      exact ih (hold hrequest ▸ hrequest) hq'
    cases (disciplined_run hr).stepped hs with
    | @spawned j request' fresh phases =>
      rw [phases] at hq
      by_cases hij : i = j
      · subst hij
        obtain ⟨-, rfl⟩ := System.step_spawn.1 hs
        simp only [Function.update_self, Option.some.injEq] at hq
        simp only [System.requestOf, Function.update_self, Option.map_some, Option.some.injEq] at hi
        subst hq
        subst hi
        exact hinitial request'
      · rw [Function.update_of_ne hij] at hq
        exact hbefore hq
    | crashed phases | outside phases =>
      rw [phases] at hq
      exact hbefore hq
    | @advanced j _ _ _ _ phases _ _ step =>
      rw [phases] at hq
      by_cases hij : i = j
      · subst hij
        simp only [Function.update_self, Option.some.injEq] at hq
        subst hq
        exact hadvance (hbefore step.before) step.allowed step.answered
      · rw [Function.update_of_ne hij] at hq
        exact hbefore hq

/-- What holds of the phase any call starts in, and is kept whoever takes a step and whatever comes
from outside, holds of every call. -/
theorem run_each (K : D.Phase → M.World → Prop) {w : M.World}
    (hinitial : ∀ request w, K (D.initial request) w)
    (hadvance : ∀ {w w' o r choice q}, K q w → D.Allows q o → D.Answers o r →
      M.exec w o choice = some (r, w') → K (D.advance q o r) w')
    (hexec : ∀ {w w' o r choice q}, K q w → M.exec w o choice = some (r, w') → K q w')
    (houtside : ∀ {w w' event q}, K q w → M.outside w event = some w' → K q w')
    (h : Run P (System.start w) s) {i : Nat} {q : D.Phase} (hq : D.phase s i = some q) :
    K q s.world := by
  refine run_invariant (fun ph w => ∀ i q, ph i = some q → K q w) (fun _ _ hq => nomatch hq) ?_ ?_
    ?_ h i q hq
  · intro ph w j request hinv hfresh k q hk
    by_cases hkj : k = j
    · subst hkj
      rw [Function.update_self, Option.some.injEq] at hk
      exact hk ▸ hinitial request w
    · rw [Function.update_of_ne hkj] at hk
      exact hinv k q hk
  · intro ph w w' j o r choice q' hinv hj ho ha he k q hk
    by_cases hkj : k = j
    · subst hkj
      rw [Function.update_self, Option.some.injEq] at hk
      exact hk ▸ hadvance (hinv k q' hj) ho ha he
    · rw [Function.update_of_ne hkj] at hk
      exact hexec (hinv k q hk) he
  · intro ph w w' event hinv he k q hk
    exact houtside (hinv k q hk) he

/-- What the phase of a call knows of an operation as soon as it is performed, and goes on knowing
through whatever the discipline allows next, it knows of every operation the call performed. -/
theorem run_remembers (K : D.Phase → (o : I.Op) → I.Ret o → Prop) {J : D.Phase → Prop} {w : M.World}
    (hJ : ∀ {s i q}, Run P (System.start w) s → D.phase s i = some q → J q)
    (hnew : ∀ {q o r}, J q → D.Allows q o → K (D.advance q o r) o r)
    (hkeep : ∀ {q o r o' r'}, J q → D.Allows q o → K q o' r' → K (D.advance q o r) o' r')
    (h : Run P (System.start w) s) {e : Performed I} (he : e ∈ s.trace) {q : D.Phase}
    (hq : D.phase s e.thread = some q) : K q e.op e.ret := by
  induction h generalizing q with
  | refl => cases he
  | @tail s₁ s₂ l hr _ hs ih =>
    have hdisciplined := disciplined_run (D := D) hr
    cases hdisciplined.stepped hs with
    | @spawned j request fresh phases _ _ trace =>
      rw [trace] at he
      have hne : e.thread ≠ j := by
        rintro rfl
        obtain ⟨request', hrequest⟩ := hdisciplined.quiet.requestOf he
        obtain ⟨t, ht, -⟩ := Option.map_eq_some_iff.1 hrequest
        rw [phase, ht] at fresh
        cases fresh
      rw [phases, Function.update_of_ne hne] at hq
      exact ih he hq
    | crashed phases _ _ trace | outside phases _ _ trace =>
      rw [trace] at he
      rw [phases] at hq
      exact ih he hq
    | @advanced j _ o r q' phases _ _ step =>
      rw [phases] at hq
      rw [step.trace] at he
      have hj := hJ hr step.before
      by_cases hthread : e.thread = j
      · rw [hthread, Function.update_self, Option.some.injEq] at hq
        subst hq
        rcases List.mem_cons.1 he with rfl | he
        · exact hnew hj step.allowed
        · exact hkeep hj step.allowed (ih he (hthread ▸ step.before))
      · rw [Function.update_of_ne hthread] at hq
        rcases List.mem_cons.1 he with rfl | he
        · exact absurd rfl hthread
        · exact ih he hq

theorem related_update {E : Discipline M} {R : D.Phase → E.Phase → Prop} {i : Nat}
    {ph : Nat → Option D.Phase} {ph' : Nat → Option E.Phase} {q : D.Phase} {q' : E.Phase}
    (h : ∀ j, Option.Rel R (ph j) (ph' j)) (hq : R q q') (j : Nat) :
    Option.Rel R (Function.update ph i (some q) j) (Function.update ph' i (some q') j) := by
  by_cases hj : j = i
  · subst hj
    simp only [Function.update_self]
    exact .some hq
  · simp only [Function.update_of_ne hj]
    exact h j

/-- Two disciplines run in lockstep: a relation between the phases they start a request in, which
every operation both allow keeps, relates the phases of each thread after every run. -/
theorem run_related {E : Discipline M} (R : D.Phase → E.Phase → Prop) {w : M.World}
    (hinitial : ∀ request, R (D.initial request) (E.initial request))
    (hadvance : ∀ {q q' o r}, R q q' → D.Allows q o → E.Allows q' o → D.Answers o r →
      E.Answers o r → R (D.advance q o r) (E.advance q' o r))
    (h : Run P (System.start w) s) : ∀ i, Option.Rel R (D.phase s i) (E.phase s i) := by
  induction h with
  | refl => exact fun _ => .none
  | @tail s₁ s₂ l hr _ hs ih =>
    have hE := (disciplined_run (D := E) hr).stepped hs
    cases (disciplined_run (D := D) hr).stepped hs with
    | spawned _ phases =>
      cases hE with
      | spawned _ phases' =>
        rw [phases, phases']
        exact related_update ih (hinitial _)
    | @advanced i _ _ _ _ phases _ _ step =>
      cases hE with
      | advanced phases' _ _ step' =>
        cases step'.trace.symm.trans step.trace
        have hrel := ih i
        rw [step.before, step'.before] at hrel
        rw [phases, phases']
        cases hrel with
        | some hR =>
          exact related_update ih
            (hadvance hR step.allowed step'.allowed step.answered step'.answered)
    | crashed phases =>
      cases hE with
      | crashed phases' =>
        rw [phases, phases']
        exact ih
    | outside phases =>
      cases hE with
      | outside phases' =>
        rw [phases, phases']
        exact ih

end Discipline

end Interleaving
