import Mathlib.Data.List.Forall2
import NotificationPlatform.Template.Grammar

/-!
# What rendering puts in the place of a placeholder

Where a name is declared more than once, its last declaration is the one in force, as in the map
`resolveVariables` fills.
-/

namespace NotificationPlatform

namespace Template

open Utf16

variable {ν : Type} (numberText : ν → Text) (declarations : List TemplateVariableDeclaration)
  (values : Record ν)

def declaration? (name : Text) : Option TemplateVariableDeclaration :=
  declarations.reverse.find? fun d => d.name = name

def Declared (name : Text) : Prop := ∃ d ∈ declarations, d.name = name

/-- What may stand for a node in a rendered body: for a placeholder the value supplied for its
variable, or else the default declared for it, or else nothing, if it is declared and not
required. -/
inductive Stands : TemplateNode → Text → Prop where
  | text (value : Text) : Stands (.text value) value
  | supplied {node : VariableNode} {value : Text} :
      supported numberText (values.get node.name) = some value → Stands (.variable node) value
  | default {node : VariableNode} {d : TemplateVariableDeclaration} {value : Text} :
      supported numberText (values.get node.name) = none →
      declaration? declarations node.name = some d → d.defaultValue = some value →
        Stands (.variable node) value
  | omitted {node : VariableNode} {d : TemplateVariableDeclaration} :
      supported numberText (values.get node.name) = none →
      declaration? declarations node.name = some d → d.required = false → d.defaultValue = none →
        Stands (.variable node) []

/-- The rendered body is made of what stands for its nodes, one after the other. -/
def Rendered (nodes : List TemplateNode) (renderedBody : Text) : Prop :=
  ∃ pieces, List.Forall₂ (Stands numberText declarations values) nodes pieces ∧
    renderedBody = pieces.flatten

variable {numberText declarations values}

/-! ## The map of resolved values -/

theorem lookup_replaced (resolved : List (Text × Text)) (name value name' : Text) :
    (resolved.map fun e => if e.1 = name then (name, value) else e).lookup name' =
      if name' = name then (resolved.lookup name).map fun _ => value else resolved.lookup name' := by
  induction resolved with
  | nil => simp
  | cons e rest ih =>
    obtain ⟨k, v⟩ := e
    have hcons : ∀ (n k v : Text) (l : List (Text × Text)),
        ((k, v) :: l).lookup n = if n = k then some v else l.lookup n := by
      intro n k v l
      by_cases hn : n = k
      · rw [if_pos hn, hn, List.lookup_cons_self]
      · rw [if_neg hn, List.lookup_cons, beq_eq_false_iff_ne.2 hn]
    rw [List.map_cons, hcons name k, hcons name' k]
    by_cases hk : k = name
    · subst hk
      rw [if_pos rfl, if_pos rfl, hcons, ih]
      by_cases hn : name' = k
      · rw [if_pos hn, if_pos hn, Option.map_some]
      · rw [if_neg hn, if_neg hn, if_neg hn, if_neg hn]
    · rw [if_neg hk, if_neg (Ne.symm hk), hcons, ih]
      by_cases hn : name' = name
      · rw [if_neg (hn ▸ Ne.symm hk), if_pos hn, if_pos hn]
      · rw [if_neg hn, if_neg hn]

theorem lookup_setValue (resolved : List (Text × Text)) (name value name' : Text) :
    (setValue resolved name value).lookup name' =
      if name' = name then some value else resolved.lookup name' := by
  unfold setValue
  split
  · rename_i hmem
    have hsome : (resolved.lookup name).isSome = true := by
      rw [List.lookup_isSome_iff]
      obtain ⟨e, he, rfl⟩ := List.mem_map.1 hmem
      exact ⟨e, he, by simp⟩
    obtain ⟨old, hold⟩ := Option.isSome_iff_exists.1 hsome
    rw [lookup_replaced, hold, Option.map_some]
  · rename_i hmem
    have hnone : resolved.lookup name = none := by
      rw [List.lookup_eq_none_iff]
      intro e he
      have hne : name ≠ e.1 := fun h => hmem (h ▸ List.mem_map_of_mem he)
      simp [hne]
    rw [List.lookup_append]
    by_cases hn : name' = name
    · simp [hn, hnone]
    · simp [hn]

/-- What a declaration resolves to, unless it is required and nothing was supplied. -/
def resolvedTo (numberText : ν → Text) (values : Record ν) (d : TemplateVariableDeclaration) :
    Text := (supported numberText (values.get d.name)).getD (d.defaultValue.getD [])

/-- What the loop has resolved, while nothing that was required is missing. -/
theorem resolved_loop (declarations : List TemplateVariableDeclaration)
    (h : (declarations.foldl (resolveVariable numberText values) {}).missingVariables = []) :
    (∀ d ∈ declarations, supported numberText (values.get d.name) = none → d.required = false) ∧
    ∀ name, (declarations.foldl (resolveVariable numberText values) {}).resolved.lookup name =
      (declaration? declarations name).map (resolvedTo numberText values) := by
  induction declarations using List.reverseRecOn with
  | nil => exact ⟨fun _ h => absurd h List.not_mem_nil, fun _ => rfl⟩
  | append_singleton before d ih =>
    rw [List.foldl_append, List.foldl_cons, List.foldl_nil] at h ⊢
    have hlast : ∀ name, declaration? (before ++ [d]) name =
        if d.name = name then some d else declaration? before name := by
      intro name
      simp only [declaration?, List.reverse_append, List.reverse_singleton, List.singleton_append,
        List.find?_cons]
      by_cases hn : d.name = name
      · simp [hn]
      · simp [hn]
    -- both branches that resolve the name resolve it to the same
    have hset : ∀ (resolved : List (Text × Text)) (name : Text),
        (∀ name, resolved.lookup name =
          (declaration? before name).map (resolvedTo numberText values)) →
        (setValue resolved d.name (resolvedTo numberText values d)).lookup name =
          (declaration? (before ++ [d]) name).map (resolvedTo numberText values) := by
      intro resolved name hresolved
      rw [lookup_setValue, hlast, hresolved]
      by_cases hn : d.name = name
      · rw [if_pos hn.symm, if_pos hn, Option.map_some]
      · rw [if_neg (Ne.symm hn), if_neg hn]
    cases hs : supported numberText (values.get d.name) with
    | some supplied =>
      have hvalue : resolvedTo numberText values d = supplied := by
        rw [resolvedTo, hs, Option.getD_some]
      simp only [resolveVariable, hs] at h ⊢
      obtain ⟨hrequired, hresolved⟩ := ih h
      refine ⟨fun d' hd' hnone => ?_, fun name => ?_⟩
      · rcases List.mem_append.1 hd' with hd' | hd'
        · exact hrequired d' hd' hnone
        · rw [List.mem_singleton.1 hd', hs] at hnone
          cases hnone
      · rw [← hvalue]
        exact hset _ name hresolved
    | none =>
      have hvalue : resolvedTo numberText values d = d.defaultValue.getD [] := by
        rw [resolvedTo, hs, Option.getD_none]
      simp only [resolveVariable, hs] at h ⊢
      split at h
      · exact absurd h (List.append_ne_nil_of_right_ne_nil _ (List.cons_ne_nil _ _))
      · rename_i hd
        obtain ⟨hrequired, hresolved⟩ := ih h
        refine ⟨fun d' hd' hnone => ?_, fun name => ?_⟩
        · rcases List.mem_append.1 hd' with hd' | hd'
          · exact hrequired d' hd' hnone
          · rw [List.mem_singleton.1 hd']
            exact Bool.of_not_eq_true hd
        · rw [if_neg hd, ← hvalue]
          exact hset _ name hresolved

/-! ## Rendering -/

theorem supported_inherited (name : Text) : supported numberText (inherited name) = none := by
  unfold inherited
  split
  · rfl
  · split <;> rfl

/-- A value of a supported type is a property of the record itself. -/
theorem supplied_own {name value : Text}
    (h : supported numberText (values.get name) = some value) :
    name ∈ values.entries.map (·.1) := by
  by_contra hname
  have hnone : values.entries.lookup name = none := by
    rw [List.lookup_eq_none_iff]
    intro e he
    have hne : name ≠ e.1 := fun h => hname (h ▸ List.mem_map_of_mem he)
    simp [hne]
  rw [Record.get, hnone, Option.getD_none, supported_inherited] at h
  cases h

theorem ok_of_assertNoUnknownVariables {u : Unit}
    (h : assertNoUnknownVariables declarations values = .ok u) {name : Text}
    (hname : name ∈ values.entries.map (·.1)) : Declared declarations name := by
  simp only [assertNoUnknownVariables] at h
  split at h
  · rename_i hlength
    have hnone := List.eq_nil_of_length_eq_zero hlength
    have hdeclared := List.filter_eq_nil_iff.1 hnone name hname
    simp only [decide_not, Bool.not_eq_eq_eq_not, Bool.not_true, decide_eq_false_iff_not,
      not_not] at hdeclared
    exact List.mem_map.1 hdeclared
  · cases h

theorem ok_of_resolveVariables {resolution : Resolution}
    (h : resolveVariables numberText declarations values = .ok resolution) :
    resolution = declarations.foldl (resolveVariable numberText values) {} ∧
      (declarations.foldl (resolveVariable numberText values) {}).missingVariables = [] := by
  simp only [resolveVariables] at h
  split at h
  · cases h
  · rename_i hlength
    cases h
    exact ⟨rfl, List.eq_nil_of_length_eq_zero (by omega)⟩

/-- What a rendering that returns went through. -/
theorem ok_of_renderTemplate {parsed : ParsedTemplate} {result : RenderResult}
    (h : renderTemplate numberText parsed declarations values = .ok result) :
    (∀ name ∈ values.entries.map (·.1), Declared declarations name) ∧
    (∀ d ∈ declarations, supported numberText (values.get d.name) = none → d.required = false) ∧
    ∃ resolved : List (Text × Text),
      (∀ name, resolved.lookup name =
        (declaration? declarations name).map (resolvedTo numberText values)) ∧
      result.renderedBody = (parsed.nodes.map (renderNode resolved)).flatten := by
  unfold renderTemplate at h
  cases hunknown : assertNoUnknownVariables declarations values with
  | error e =>
    rw [hunknown] at h
    cases h
  | ok u =>
    rw [hunknown] at h
    cases htypes : assertValueTypes values with
    | error e =>
      simp only [htypes] at h
      cases h
    | ok u =>
      simp only [htypes] at h
      cases hresolve : resolveVariables numberText declarations values with
      | error e =>
        simp only [hresolve] at h
        cases h
      | ok resolution =>
        simp only [hresolve] at h
        obtain ⟨rfl, hmissing⟩ := ok_of_resolveVariables hresolve
        obtain ⟨hrequired, hresolved⟩ := resolved_loop declarations hmissing
        refine ⟨fun name hname => ok_of_assertNoUnknownVariables hunknown hname, hrequired, _,
          hresolved, ?_⟩
        cases hlengths : assertValueLengths
            (declarations.foldl (resolveVariable numberText values) {}).resolved with
        | error e =>
          simp only [Bind.bind, Except.bind, hlengths] at h
          cases h
        | ok u =>
          simp only [Bind.bind, Except.bind, hlengths] at h
          split at h
          · cases h
          · cases h
            rfl

theorem declaration?_some {name : Text} {d : TemplateVariableDeclaration}
    (h : declaration? declarations name = some d) : d ∈ declarations ∧ d.name = name :=
  ⟨List.mem_reverse.1 (List.mem_of_find?_eq_some h), by simpa using List.find?_some h⟩

theorem declared_iff {name : Text} :
    Declared declarations name ↔ ∃ d, declaration? declarations name = some d := by
  constructor
  · rintro ⟨d, hd, hname⟩
    refine Option.isSome_iff_exists.1 (List.find?_isSome.2 ⟨d, List.mem_reverse.2 hd, ?_⟩)
    simpa using hname
  · rintro ⟨d, hd⟩
    exact ⟨d, declaration?_some hd⟩

/-- The node of a declared variable becomes what may stand for it. -/
theorem stands_renderNode {resolved : List (Text × Text)} {node : TemplateNode}
    (hrequired : ∀ d ∈ declarations, supported numberText (values.get d.name) = none →
      d.required = false)
    (hresolved : ∀ name, resolved.lookup name =
      (declaration? declarations name).map (resolvedTo numberText values))
    (hdeclared : ∀ v, node = .variable v → Declared declarations v.name) :
    Stands numberText declarations values node (renderNode resolved node) := by
  cases node with
  | text value => exact .text value
  | «variable» v =>
    obtain ⟨d, hd⟩ := declared_iff.1 (hdeclared v rfl)
    obtain ⟨hmem, hname⟩ := declaration?_some hd
    have hnode : renderNode resolved (.variable v) = resolvedTo numberText values d := by
      rw [renderNode, hresolved, hd, Option.map_some, Option.getD_some]
    rw [hnode, resolvedTo, hname]
    cases hs : supported numberText (values.get v.name) with
    | some value => exact .supplied hs
    | none =>
      cases hdefault : d.defaultValue with
      | some value => exact .default hs hd hdefault
      | none => exact .omitted hs hd (hrequired d hmem (hname ▸ hs)) hdefault

theorem variable_mem_layOut {body before : Text} {i : Nat} {placeholders : List VariableNode}
    {v : VariableNode} :
    .variable v ∈ layOut body before i placeholders ↔ v ∈ placeholders := by
  have htext : ∀ s, .variable v ∉ textNodes s := by
    intro s h
    unfold textNodes at h
    split at h
    · cases h
    · exact absurd (List.mem_singleton.1 h) nofun
  induction placeholders generalizing before i with
  | nil => simp only [layOut, htext, List.not_mem_nil]
  | cons v' rest ih =>
    simp only [layOut, List.mem_append, htext, false_or, List.mem_cons, ih,
      TemplateNode.variable.injEq]

/-- The variable names of a parsed template are those of its placeholders. -/
theorem mem_variableNames {body : Text} {parsed : ParsedTemplate}
    (h : parseTemplate body = .ok parsed) {name : Text} :
    name ∈ parsed.variableNames ↔ ∃ v, .variable v ∈ parsed.nodes ∧ v.name = name := by
  obtain ⟨placeholders, -, hnodes, hnames, -⟩ := parseFrom_ok h (Nat.zero_le _)
  rw [List.nil_append] at hnodes
  rw [hnames, (firstAppearances _).complete, List.mem_map, hnodes]
  simp only [variable_mem_layOut]

/-- A rendering that returns puts in the place of every placeholder what may stand for it exactly
when every placeholder names a declared variable. -/
theorem rendered_iff_declared {body : Text} {parsed : ParsedTemplate} {result : RenderResult}
    (hparsed : parseTemplate body = .ok parsed)
    (hresult : renderTemplate numberText parsed declarations values = .ok result) :
    Rendered numberText declarations values parsed.nodes result.renderedBody ↔
      ∀ name ∈ parsed.variableNames, Declared declarations name := by
  obtain ⟨hown, hrequired, resolved, hresolved, hbody⟩ := ok_of_renderTemplate hresult
  constructor
  · rintro ⟨pieces, hpieces, -⟩ name hname
    obtain ⟨v, hv, rfl⟩ := (mem_variableNames hparsed).1 hname
    obtain ⟨i, hi, hget⟩ := List.getElem_of_mem hv
    have hpiece := hpieces.get hi (hpieces.length_eq ▸ hi)
    rw [List.get_eq_getElem, hget] at hpiece
    generalize pieces.get _ = piece at hpiece
    cases hpiece with
    | supplied hs => exact hown _ (supplied_own hs)
    | default _ hd _ | omitted _ hd _ _ => exact declared_iff.2 ⟨_, hd⟩
  · intro hdeclared
    refine ⟨parsed.nodes.map (renderNode resolved), ?_, hbody⟩
    refine List.forall₂_map_right_iff.2 (List.forall₂_same.2 fun node hnode => ?_)
    refine stands_renderNode hrequired hresolved fun v hv => ?_
    subst hv
    exact hdeclared v.name ((mem_variableNames hparsed).2 ⟨v, hnode, rfl⟩)

/-- A greeting of a variable that is declared, rendered with a name. -/
theorem rendered_iff_declared_greeting :
    Rendered (fun _ : Empty => []) [{ name := [98], required := true }]
      ⟨[([98], .string [65])], List.nodup_singleton _⟩
      [.text [97, 32], .variable ⟨[98], 2, 7⟩] [97, 32, 65] ↔
    ∀ name ∈ [[98]], Declared [{ name := [98], required := true }] name :=
  @rendered_iff_declared _ _ _ _ [97, 32, 123, 123, 98, 125, 125]
    ⟨[.text [97, 32], .variable ⟨[98], 2, 7⟩], [[98]]⟩ ⟨[97, 32, 65], 3, [[98]], []⟩
    (by decide +kernel) (by decide +kernel)

/-- A placeholder that names no declared variable vanishes from the message. -/
theorem rendered_iff_declared_undeclared : ∃ parsed result,
    parseTemplate (ofString "a \x7b\x7bb\x7d\x7d") = .ok parsed ∧
    renderTemplate (fun _ : Empty => []) parsed [] ⟨[], List.nodup_nil⟩ = .ok result ∧
    result.renderedBody = ofString "a " ∧
    ¬ Rendered (fun _ : Empty => []) [] ⟨[], List.nodup_nil⟩ parsed.nodes result.renderedBody := by
  refine ⟨⟨[.text [97, 32], .variable ⟨[98], 2, 7⟩], [[98]]⟩, ⟨[97, 32], 2, [[98]], []⟩,
    by decide +kernel, by decide +kernel, by decide, ?_⟩
  rintro ⟨pieces, hpieces, -⟩
  cases hpieces with
  | cons _ hpieces =>
    cases hpieces with
    | cons hpiece _ =>
      cases hpiece with
      | supplied hs => cases hs
      | default _ hd _ | omitted _ hd _ _ => cases hd

end Template

end NotificationPlatform
