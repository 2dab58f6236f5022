import NotificationPlatform.Interleaving.System

/-!
# Some of the requests

What is left of a system without some of its requests and what they did. If the steps of the requests
that stay do the same in what is left of the world, and every other step looks there like something
from outside, then what is left of a run is a run: the requests that stay cannot tell that the others
were there.
-/

namespace Interleaving

variable {I : Interface} {M : Machine I}

/-- Which requests stay, and what of the world. -/
structure Portion (M : Machine I) where
  keeps : M.Request → Bool
  view : M.World → M.World

namespace System

variable (part : Portion M) {s s' : System M}

/-- Whether the thread serves a request that stays. -/
def isKept (s : System M) (i : Nat) : Bool := (s.requestOf i).any part.keeps

variable {part}

theorem isKept_of_thread {i : Nat} {t : Thread M} (h : s.threads i = some t) :
    s.isKept part i = part.keeps t.request := by
  simp only [isKept, requestOf, h, Option.map_some, Option.any_some]

theorem isKept_congr (h : s'.requestOf = s.requestOf) : s'.isKept part = s.isKept part := by
  funext i
  rw [isKept, isKept, h]

theorem requestOf_update {threads : Nat → Option (Thread M)} {w : M.World}
    {trace : List (Performed I)} {i : Nat} {request : M.Request} {status status' : Status I M.Result}
    (h : s.threads i = some ⟨request, status⟩)
    (hthreads : threads = Function.update s.threads i (some ⟨request, status'⟩)) :
    (⟨w, threads, trace⟩ : System M).requestOf = s.requestOf := by
  funext j
  by_cases hj : j = i
  · subst hj
    simp only [requestOf, hthreads, Function.update_self, h, Option.map_some]
  · simp only [requestOf, hthreads, Function.update_of_ne hj]

/-- What is left of the threads. -/
def keptThreads (part : Portion M) (threads : Nat → Option (Thread M)) (i : Nat) : Option (Thread M) :=
  (threads i).filter fun t => part.keeps t.request

section Threads

variable {threads : Nat → Option (Thread M)} {i : Nat} {request : M.Request}
  {status : Status I M.Result}

theorem keptThreads_of_kept (h : part.keeps request = true) :
    keptThreads part (Function.update threads i (some ⟨request, status⟩)) =
      Function.update (keptThreads part threads) i (some ⟨request, status⟩) := by
  funext j
  by_cases hj : j = i
  · subst hj
    simp only [keptThreads, Function.update_self]
    exact Option.filter_some_pos h
  · simp only [keptThreads, Function.update_of_ne hj]

theorem keptThreads_of_left_out (h : part.keeps request = false)
    (hi : keptThreads part threads i = none) :
    keptThreads part (Function.update threads i (some ⟨request, status⟩)) =
      keptThreads part threads := by
  funext j
  by_cases hj : j = i
  · subst hj
    rw [hi]
    simp only [keptThreads, Function.update_self]
    exact Option.filter_some_neg h
  · simp only [keptThreads, Function.update_of_ne hj]

theorem keptThreads_eq_some (hi : threads i = some ⟨request, status⟩)
    (h : part.keeps request = true) : keptThreads part threads i = some ⟨request, status⟩ := by
  rw [keptThreads, hi]
  exact Option.filter_some_pos h

theorem keptThreads_eq_none (hi : threads i = some ⟨request, status⟩)
    (h : part.keeps request = false) : keptThreads part threads i = none := by
  rw [keptThreads, hi]
  exact Option.filter_some_neg h

end Threads

variable (part) in
/-- What is left of a system. -/
def secluded (s : System M) : System M where
  world := part.view s.world
  threads := keptThreads part s.threads
  trace := s.trace.filter fun e => s.isKept part e.thread

end System

/-- How a part of the world takes the steps that are taken from systems `Inv` holds of. -/
structure Portion.Respects (part : Portion M) (Inv : System M → Prop) : Prop where
  own : ∀ {s i request o k c r w}, Inv s →
    s.threads i = some ⟨request, .running (.perform o k)⟩ → part.keeps request = true →
      M.exec s.world o c = some (r, w) →
        M.exec (part.view s.world) o c = some (r, part.view w)
  other : ∀ {s i request o k c r w}, Inv s →
    s.threads i = some ⟨request, .running (.perform o k)⟩ → part.keeps request = false →
      M.exec s.world o c = some (r, w) →
        ∃ e, M.outside (part.view s.world) e = some (part.view w)
  outside : ∀ {s e w}, Inv s → M.outside s.world e = some w →
    ∃ e', M.outside (part.view s.world) e' = some (part.view w)

section Run

variable {part : Portion M} {Inv : System M → Prop} {s s' : System M}

/-- A step is a step of what is left, or leaves it as it is. -/
theorem Portion.Respects.step (h : part.Respects Inv) (hinv : Inv s) (hquiet : Discipline.Quiet s)
    {l : Label M} (hs : s.step l = some s') :
    s'.secluded part = s.secluded part ∨
      ∃ l', (s.secluded part).step l' = some (s'.secluded part) := by
  cases l with
  | spawn i request =>
    obtain ⟨hi, rfl⟩ := System.step_spawn.1 hs
    have hfree : System.keptThreads part s.threads i = none := by
      simp only [System.keptThreads, hi, Option.filter_none]
    -- nothing was performed by the thread that starts
    have htrace : (s.trace.filter fun e => System.isKept part { s with
        threads := Function.update s.threads i
          (some ⟨request, .running (M.program request)⟩) } e.thread) =
        s.trace.filter fun e => s.isKept part e.thread := by
      refine List.filter_congr fun e he => ?_
      have hne : e.thread ≠ i := by
        rintro rfl
        obtain ⟨request', hrequest'⟩ := hquiet.requestOf he
        simp only [System.requestOf, hi, Option.map_none, reduceCtorEq] at hrequest'
      simp only [System.isKept, System.requestOf, Function.update_of_ne hne]
    cases hkeeps : part.keeps request with
    | true =>
      refine .inr ⟨.spawn i request, System.step_spawn.2 ⟨hfree, ?_⟩⟩
      simp only [System.secluded, htrace, System.keptThreads_of_kept hkeeps]
    | false =>
      refine .inl ?_
      simp only [System.secluded, htrace, System.keptThreads_of_left_out hkeeps hfree]
  | advance i c =>
    obtain ⟨request, o, k, r, w, hi, he, rfl⟩ := System.step_advance.1 hs
    have hrequests : (s.record i request o r (k r) w).requestOf = s.requestOf :=
      System.requestOf_update hi rfl
    have hkept : s.isKept part i = part.keeps request := System.isKept_of_thread hi
    have hsecluded : (s.record i request o r (k r) w).secluded part =
        ⟨part.view w, System.keptThreads part (Function.update s.threads i
          (some ⟨request, .running (k r)⟩)),
          (⟨i, o, r⟩ :: s.trace).filter fun e => s.isKept part e.thread⟩ := by
      rw [System.secluded, System.isKept_congr hrequests]
      rfl
    cases hkeeps : part.keeps request with
    | true =>
      refine .inr ⟨.advance i c, System.step_advance.2 ⟨request, o, k, r, part.view w,
        System.keptThreads_eq_some hi hkeeps, h.own hinv hi hkeeps he, ?_⟩⟩
      rw [hsecluded, System.keptThreads_of_kept hkeeps, List.filter_cons,
        if_pos (show s.isKept part (⟨i, o, r⟩ : Performed I).thread = true from
          hkept.trans hkeeps)]
      rfl
    | false =>
      obtain ⟨e, he'⟩ := h.other hinv hi hkeeps he
      have hfree : System.keptThreads part s.threads i = none :=
        System.keptThreads_eq_none hi hkeeps
      refine .inr ⟨.outside e, System.step_outside.2 ⟨_, he', ?_⟩⟩
      rw [hsecluded, System.keptThreads_of_left_out hkeeps hfree, List.filter_cons,
        if_neg (show ¬ s.isKept part (⟨i, o, r⟩ : Performed I).thread = true from
          Bool.eq_false_iff.1 (hkept.trans hkeeps))]
      rfl
  | crash i =>
    obtain ⟨request, o, k, hi, rfl⟩ := System.step_crash.1 hs
    have hrequests : System.requestOf { s with
        threads := Function.update s.threads i (some ⟨request, .crashed⟩) } = s.requestOf :=
      System.requestOf_update hi rfl
    cases hkeeps : part.keeps request with
    | true =>
      refine .inr ⟨.crash i, System.step_crash.2 ⟨request, o, k,
        System.keptThreads_eq_some hi hkeeps, ?_⟩⟩
      rw [System.secluded, System.isKept_congr hrequests, System.keptThreads_of_kept hkeeps]
      rfl
    | false =>
      refine .inl ?_
      have hfree : System.keptThreads part s.threads i = none :=
        System.keptThreads_eq_none hi hkeeps
      rw [System.secluded, System.isKept_congr hrequests,
        System.keptThreads_of_left_out hkeeps hfree]
      rfl
  | outside e =>
    obtain ⟨w, he, rfl⟩ := System.step_outside.1 hs
    obtain ⟨e', he'⟩ := h.outside hinv he
    exact .inr ⟨.outside e', System.step_outside.2 ⟨_, he', rfl⟩⟩

/-- **What is left of a run is a run.** -/
theorem Run.secluded {P : System M → Label M → Prop} {w : M.World} (h : part.Respects Inv)
    (hinv : ∀ {s}, Run P (System.start w) s → Inv s) (hr : Run P (System.start w) s) :
    Run Any (System.start (part.view w)) (s.secluded part) := by
  induction hr with
  | refl => exact .refl
  | @tail s₁ s₂ l hr _ hs ih =>
    have hquiet := (Discipline.disciplined_run (D := Discipline.lax M) hr).quiet
    rcases h.step (hinv hr) hquiet hs with hsame | ⟨l', hl'⟩
    · rw [hsame]
      exact ih
    · exact .tail ih trivial hl'

end Run

end Interleaving
