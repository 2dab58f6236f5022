import NotificationPlatform.Interleaving.Raising
import NotificationPlatform.Interleaving.System

/-!
# Programs that run alone

`Ensures` is what every run of a program alone establishes, whatever the surroundings choose.
`alone` is the one run in which they always choose the same, and `Returns` what that run comes back
with. Both are stated for the end of the program and computed along its structure. A thread of a
system can be left alone at any time: the rest of its program is then run to its end.
-/

namespace Interleaving

variable {I : Interface} {α β ε W C : Type}

section

variable (exec : W → (o : I.Op) → C → Option (I.Ret o × W))

/-- Every run of the program from `w` ends as `Q` says. -/
def Prog.Ensures (p : Prog I α) (w : W) (Q : α → W → Prop) : Prop :=
  ∀ cs a w', p.runs exec cs w = some (a, w') → Q a w'

/-- The run in which every operation is answered as `c` says. -/
def Prog.alone (c : C) : Prog I α → W → Option (α × W)
  | .done a, w => some (a, w)
  | .perform o k, w => (exec w o c).bind fun p => (k p.1).alone c p.2

/-- The run under `c` comes to an end, as `Q` says. -/
def Prog.Returns (c : C) (p : Prog I α) (w : W) (Q : α → W → Prop) : Prop :=
  ∃ a w', p.alone exec c w = some (a, w') ∧ Q a w'

end

variable {exec : W → (o : I.Op) → C → Option (I.Ret o × W)} {c : C} {w : W}

theorem Prog.Ensures.mono {p : Prog I α} {Q R : α → W → Prop} (h : p.Ensures exec w Q)
    (hQR : ∀ a w', Q a w' → R a w') : p.Ensures exec w R :=
  fun cs a w' hr => hQR a w' (h cs a w' hr)

theorem Prog.ensures_done {a : α} {Q : α → W → Prop} (h : Q a w) :
    (Prog.done a : Prog I α).Ensures exec w Q := by
  intro cs b w' hr
  obtain ⟨-, hb⟩ := Prog.runs_done.1 hr
  cases hb
  exact h

theorem Prog.ensures_bind {p : Prog I α} {f : α → Prog I β} {Q : β → W → Prop}
    (h : p.Ensures exec w fun a w' => (f a).Ensures exec w' Q) : (p >>= f).Ensures exec w Q := by
  intro cs b w' hr
  obtain ⟨cs₁, cs₂, a, w₁, -, h₁, h₂⟩ := Prog.runs_bind.1 hr
  exact h cs₁ a w₁ h₁ cs₂ b w' h₂

theorem Prog.alone_bind {p : Prog I α} {f : α → Prog I β} :
    (p >>= f).alone exec c w = (p.alone exec c w).bind fun x => (f x.1).alone exec c x.2 := by
  induction p generalizing w with
  | done a => rfl
  | perform o k ih =>
    rw [Prog.perform_bind]
    simp only [Prog.alone]
    cases he : exec w o c with
    | none => rfl
    | some p => exact ih p.1

theorem Prog.runs_of_alone {p : Prog I α} {x : α × W} (h : p.alone exec c w = some x) :
    ∃ n, p.runs exec (List.replicate n c) w = some x := by
  induction p generalizing w with
  | done a =>
    cases h
    exact ⟨0, rfl⟩
  | perform o k ih =>
    obtain ⟨⟨r, w₁⟩, he, h⟩ := Option.bind_eq_some_iff.1 h
    obtain ⟨n, hn⟩ := ih r h
    exact ⟨n + 1, Prog.runs_perform.2 ⟨c, _, r, w₁, rfl, he, hn⟩⟩

/-- What every run ensures, the run under one choice ends with. -/
theorem Prog.Ensures.alone {p : Prog I α} {Q : α → W → Prop} (h : p.Ensures exec w Q) {a : α}
    {w' : W} (hr : p.alone exec c w = some (a, w')) : Q a w' := by
  obtain ⟨n, hn⟩ := Prog.runs_of_alone hr
  exact h _ _ _ hn

@[simp] theorem Prog.returns_done {a : α} {Q : α → W → Prop} :
    (Prog.done a : Prog I α).Returns exec c w Q ↔ Q a w := by
  constructor
  · rintro ⟨b, w', h, hQ⟩
    cases h
    exact hQ
  · exact fun h => ⟨a, w, rfl, h⟩

theorem Prog.returns_perform {o : I.Op} {k : I.Ret o → Prog I α} {Q : α → W → Prop} :
    (Prog.perform o k).Returns exec c w Q ↔
      ∃ r w₁, exec w o c = some (r, w₁) ∧ (k r).Returns exec c w₁ Q := by
  constructor
  · rintro ⟨a, w', h, hQ⟩
    obtain ⟨⟨r, w₁⟩, he, h⟩ := Option.bind_eq_some_iff.1 h
    exact ⟨r, w₁, he, a, w', h, hQ⟩
  · rintro ⟨r, w₁, he, a, w', h, hQ⟩
    exact ⟨a, w', Option.bind_eq_some_iff.2 ⟨_, he, h⟩, hQ⟩

theorem Prog.returns_bind {p : Prog I α} {f : α → Prog I β} {Q : β → W → Prop} :
    (p >>= f).Returns exec c w Q ↔
      p.Returns exec c w fun a w' => (f a).Returns exec c w' Q := by
  constructor
  · rintro ⟨b, w', h, hQ⟩
    rw [Prog.alone_bind] at h
    obtain ⟨⟨a, w₁⟩, ha, h⟩ := Option.bind_eq_some_iff.1 h
    exact ⟨a, w₁, ha, b, w', h, hQ⟩
  · rintro ⟨a, w₁, ha, b, w', h, hQ⟩
    refine ⟨b, w', ?_, hQ⟩
    rw [Prog.alone_bind, ha]
    exact h

theorem Prog.Returns.mono {p : Prog I α} {Q R : α → W → Prop} (h : p.Returns exec c w Q)
    (hQR : ∀ a w', Q a w' → R a w') : p.Returns exec c w R := by
  obtain ⟨a, w', ha, hQ⟩ := h
  exact ⟨a, w', ha, hQR a w' hQ⟩

/-- There is one run only: what two facts say of its end, they say of the same end. -/
theorem Prog.Returns.both {p : Prog I α} {Q R : α → W → Prop} (h : p.Returns exec c w Q)
    (h' : p.Returns exec c w R) : ∃ a w', Q a w' ∧ R a w' := by
  obtain ⟨a, w', ha, hQ⟩ := h
  obtain ⟨b, w'', hb, hR⟩ := h'
  rw [ha] at hb
  cases hb
  exact ⟨a, w', hQ, hR⟩

namespace Raising

/-- Sequencing: an error of the first program ends both. -/
theorem ensures_bind {x : Raising I ε α} {f : α → Raising I ε β} {Q : Except ε β → W → Prop}
    (h : x.run.Ensures exec w fun r w' => match r with
      | .ok a => (f a).run.Ensures exec w' Q
      | .error e => Q (.error e) w') : (x >>= f).run.Ensures exec w Q := by
  rw [run_bind]
  refine Prog.ensures_bind (h.mono fun r w' hr => ?_)
  cases r with
  | ok a => exact hr
  | error e => exact Prog.ensures_done hr

theorem returns_bind {x : Raising I ε α} {f : α → Raising I ε β} {Q : Except ε β → W → Prop} :
    (x >>= f).run.Returns exec c w Q ↔ x.run.Returns exec c w fun r w' => match r with
      | .ok a => (f a).run.Returns exec c w' Q
      | .error e => Q (.error e) w' := by
  rw [run_bind, Prog.returns_bind]
  have hend : ∀ r w', (andThen f r).Returns exec c w' Q ↔ match r with
      | .ok a => (f a).run.Returns exec c w' Q
      | .error e => Q (.error e) w' := by
    intro r w'
    cases r with
    | ok a => exact Iff.rfl
    | error e => exact Prog.returns_done
  exact ⟨fun h => h.mono fun r w' => (hend r w').1, fun h => h.mono fun r w' => (hend r w').2⟩

theorem returns_call {o : I.Op} {f : I.Ret o → Raising I ε α} {Q : Except ε α → W → Prop} :
    ((call o : Raising I ε _) >>= f).run.Returns exec c w Q ↔
      ∃ r w₁, exec w o c = some (r, w₁) ∧ (f r).run.Returns exec c w₁ Q := Prog.returns_perform

end Raising

/-! ## A thread that is left alone -/

section Threads

variable {M : Machine I} {s s' : System M} {i : Nat}

/-- No thread but `i` has a part in it. -/
def Label.IsFor (i : Nat) : Label M → Prop
  | .spawn j _ | .advance j _ | .crash j => j = i
  | .outside _ => True

/-- A thread that is the only one to go on runs its program to the end. -/
theorem Run.of_alone {request : M.Request} {p : Prog I M.Result} {c : M.Choice} {a : M.Result}
    {w : M.World} (hi : s.threads i = some ⟨request, .running p⟩)
    (h : p.alone M.exec c s.world = some (a, w)) :
    ∃ s', Run (fun _ l => l.IsFor i) s s' ∧ s'.world = w ∧
      s'.threads i = some ⟨request, .running (.done a)⟩ := by
  induction p generalizing s with
  | done b =>
    cases h
    exact ⟨s, .refl, rfl, hi⟩
  | perform o k ih =>
    obtain ⟨⟨r, w₁⟩, he, hrest⟩ := Option.bind_eq_some_iff.1 h
    have hstep : s.step (.advance i c) = some (s.record i request o r (k r) w₁) :=
      System.step_advance.2 ⟨request, o, k, r, w₁, hi, he, rfl⟩
    obtain ⟨s', hrun, hworld, hdone⟩ := ih r (s := s.record i request o r (k r) w₁)
      (by simp only [System.record, Function.update_self]) hrest
    exact ⟨s', (Run.tail .refl rfl hstep).trans hrun, hworld, hdone⟩

/-- Meanwhile the others are left where they are. -/
theorem Run.others (h : Run (fun _ l => l.IsFor i) s s') {j : Nat} (hji : j ≠ i) :
    s'.threads j = s.threads j ∧ s'.history j = s.history j := by
  induction h with
  | refl => exact ⟨rfl, rfl⟩
  | @tail s₁ s₂ l _ hl hs ih =>
    cases l with
    | spawn i' request =>
      obtain rfl : i' = i := hl
      obtain ⟨-, rfl⟩ := System.step_spawn.1 hs
      exact ⟨(Function.update_of_ne hji _ _).trans ih.1, ih.2⟩
    | advance i' c =>
      obtain rfl : i' = i := hl
      obtain ⟨request, o, next, r, w, -, -, rfl⟩ := System.step_advance.1 hs
      exact ⟨(Function.update_of_ne hji _ _).trans ih.1,
        (System.history_record_other _ hji _ _ _ _ _).trans ih.2⟩
    | crash i' =>
      obtain rfl : i' = i := hl
      obtain ⟨request, o, next, -, rfl⟩ := System.step_crash.1 hs
      exact ⟨(Function.update_of_ne hji _ _).trans ih.1, ih.2⟩
    | outside event =>
      obtain ⟨w, -, rfl⟩ := System.step_outside.1 hs
      exact ih

end Threads

end Interleaving
