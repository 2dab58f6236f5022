import NotificationPlatform.PublicApi.CreateNotification
import NotificationPlatform.Relational.Batch

/-!
# The fingerprint of a request

What `fingerprintRequest` hashes determines the request but for the order of its metadata. That order
is taken from the collation, and then from the properties of an object. Names that the collation does
not tell apart keep the order the client wrote them in, unless they are array indices.
-/

namespace NotificationPlatform

namespace PublicApi

open CreateNotificationService
open Utf16 (Text)

namespace AcceptedRequest

/-- What `fingerprintRequest` hashes of it. -/
def canonical (environment : Environment) (r : AcceptedRequest) : Text :=
  CreateNotificationService.canonical environment r.input r.addressing

theorem applicationId_bound (r : AcceptedRequest) : r.input.applicationId < 2 ^ 128 := by
  cases r with
  | single principal => exact principal.bound
  | batch principal => exact principal.bound

theorem metadata_distinct (r : AcceptedRequest) : (r.input.metadata.map (·.1)).Nodup := by
  cases r with
  | single _ body => exact body.metadata.distinct
  | batch _ body => exact body.metadata.distinct

theorem scheduledAt_bound (r : AcceptedRequest) :
    ∀ d ∈ r.input.scheduledAt, |(d : Int)| ≤ maximumTime := by
  have hmap : ∀ s : Option OffsetDateTime, ∀ d ∈ s.map (·.toDate), |(d : Int)| ≤ maximumTime := by
    intro s d hd
    obtain ⟨d', -, rfl⟩ := Option.map_eq_some_iff.1 hd
    exact d'.abs_toDate_le
  cases r with
  | single _ body => exact hmap body.scheduledAt
  | batch _ body => exact hmap body.scheduledAt

end AcceptedRequest

/-! ## Metadata in order -/

section Metadata

variable {l l' : List (Text × Text)}

theorem lookup_eq_some_iff (h : (l.map (·.1)).Nodup) {name value : Text} :
    l.lookup name = some value ↔ (name, value) ∈ l := by
  induction l with
  | nil => simp
  | cons e l ih =>
    obtain ⟨n, v⟩ := e
    obtain ⟨hn, hl⟩ := List.nodup_cons.1 h
    by_cases hname : name = n
    · subst hname
      have hout : (name, value) ∉ l := fun hm => hn (List.mem_map.2 ⟨_, hm, rfl⟩)
      simp [hout, eq_comm]
    · have hbeq : (name == n) = false := by simpa using hname
      simp [List.lookup_cons, hbeq, ih hl, hname]

/-- Equal as finite maps. -/
theorem perm_iff_lookup (h : (l.map (·.1)).Nodup) (h' : (l'.map (·.1)).Nodup) :
    l.Perm l' ↔ ∀ name, l.lookup name = l'.lookup name := by
  rw [List.perm_ext_iff_of_nodup (.of_map _ h) (.of_map _ h')]
  constructor
  · intro hmem name
    refine Option.ext fun value => ?_
    rw [lookup_eq_some_iff h, lookup_eq_some_iff h', hmem]
  · rintro hlookup ⟨name, value⟩
    rw [← lookup_eq_some_iff h, ← lookup_eq_some_iff h', hlookup]

variable (environment : Environment)

/-- Two entries that the collation does not tell apart stand in different orders, and an object does
not put them in one: their names are no array indices. -/
def Reordered (l l' : List (Text × Text)) : Prop :=
  ∃ e e' : Text × Text, environment.localeCompare e.1 e'.1 = .eq ∧
    Json.arrayIndex? e.1 = none ∧ Json.arrayIndex? e'.1 = none ∧
      [e, e'].Sublist l ∧ [e', e].Sublist l'

/-- The order the entries are sorted in: that of the collation on their names. -/
abbrev collated (a b : Text × Text) : Prop := (environment.localeCompare a.1 b.1).isLE = true

instance : Std.Total (collated environment) where
  total a b := by
    have := environment.collates
    have hswap : environment.localeCompare a.1 b.1 = (environment.localeCompare b.1 a.1).swap :=
      Std.OrientedCmp.eq_swap
    unfold collated
    rw [hswap]
    cases environment.localeCompare b.1 a.1 <;> simp

instance : IsTrans (Text × Text) (collated environment) where
  trans _ _ _ hab hbc :=
    have := environment.collates
    Std.TransCmp.isLE_trans hab hbc

theorem tied_iff {e e' : Text × Text} : collated environment e e' ∧ collated environment e' e ↔
    environment.localeCompare e.1 e'.1 = .eq := by
  have := environment.collates
  have hswap : environment.localeCompare e'.1 e.1 = (environment.localeCompare e.1 e'.1).swap :=
    Std.OrientedCmp.eq_swap
  unfold collated
  rw [hswap]
  cases environment.localeCompare e.1 e'.1 <;> simp

theorem perm_sortedMetadata (l : List (Text × Text)) : (sortedMetadata environment l).Perm l :=
  (Json.propertyOrder_perm _).trans (List.perm_insertionSort _ _)

/-- The entries of one map are sorted into one order exactly if ties stand in one order. -/
theorem sortedMetadata_eq_iff_of_perm (h : (l.map (·.1)).Nodup) (hperm : l.Perm l') :
    sortedMetadata environment l = sortedMetadata environment l' ↔
      ¬ Reordered environment l l' := by
  have hl : l.Nodup := .of_map _ h
  have hsorted := (List.perm_insertionSort (collated environment) l).trans
    (hperm.trans (List.perm_insertionSort (collated environment) l').symm)
  have hnames : ((l.insertionSort (collated environment)).map (·.1)).Nodup :=
    ((List.perm_insertionSort _ l).map _).nodup_iff.2 h
  have hpart := hperm.filter fun e => (Json.arrayIndex? e.1).isNone
  unfold sortedMetadata
  rw [Json.propertyOrder_eq_iff hsorted hnames, Relational.filter_insertionSort,
    Relational.filter_insertionSort, Relational.insertionSort_eq_iff hpart (hl.filter _)]
  constructor
  · rintro hties ⟨e, e', heq, hi, hi', hs, hs'⟩
    obtain ⟨hle, hge⟩ := (tied_iff environment).2 heq
    have hboth : ∀ x ∈ [e, e'], (Json.arrayIndex? x.1).isNone = true := by simp [hi, hi']
    have hin := hties e e' hle hge (by
      rw [← List.filter_eq_self.2 hboth]
      exact hs.filter _)
    exact Relational.pair_sublist_asymm (hperm.nodup hl) hs' (hin.trans List.filter_sublist)
  · intro hnot e e' hle hge hs
    have hmem : ∀ x ∈ [e, e'], x ∈ l.filter fun e => (Json.arrayIndex? e.1).isNone :=
      fun x hx => hs.subset hx
    have hindex : ∀ x ∈ [e, e'], Json.arrayIndex? x.1 = none := fun x hx =>
      Option.isNone_iff_eq_none.1 (List.mem_filter.1 (hmem x hx)).2
    have hne : e ≠ e' := by
      rintro rfl
      exact Relational.pair_sublist_asymm (hl.filter _) hs hs
    rcases Relational.pair_sublist_or (hpart.subset (hmem e (by simp)))
      (hpart.subset (hmem e' (by simp))) hne with hs' | hs'
    · exact hs'
    · exact absurd ⟨e, e', (tied_iff environment).1 ⟨hle, hge⟩, hindex e (by simp),
        hindex e' (by simp), hs.trans List.filter_sublist, hs'.trans List.filter_sublist⟩ hnot

/-- **Metadata is sorted into one order exactly if it is one map and ties stand in one order.** -/
theorem sortedMetadata_eq_iff (h : (l.map (·.1)).Nodup) (h' : (l'.map (·.1)).Nodup) :
    sortedMetadata environment l = sortedMetadata environment l' ↔
      (∀ name, l.lookup name = l'.lookup name) ∧ ¬ Reordered environment l l' := by
  rw [← perm_iff_lookup h h']
  constructor
  · intro heq
    have hperm : l.Perm l' := by
      have hsorted := (perm_sortedMetadata environment l).symm
      rw [heq] at hsorted
      exact hsorted.trans (perm_sortedMetadata environment l')
    exact ⟨hperm, (sortedMetadata_eq_iff_of_perm environment h hperm).1 heq⟩
  · rintro ⟨hperm, hties⟩
    exact (sortedMetadata_eq_iff_of_perm environment h hperm).2 hties

end Metadata

/-! ## The canonical request -/

theorem Addressing.field_injective : Function.Injective Addressing.field := by
  have hfield : Utf16.ofString "recipient" ≠ Utf16.ofString "recipients" := by decide +kernel
  intro a b h
  cases a with
  | recipient value =>
    cases b with
    | recipient value' =>
      simp only [Addressing.field, Prod.mk.injEq, Json.Document.string.injEq, true_and] at h
      rw [Utf16.ofString_injective h]
    | recipients values => exact absurd (Prod.mk.inj h).1 hfield
  | recipients values =>
    cases b with
    | recipient value => exact absurd (Prod.mk.inj h).1.symm hfield
    | recipients values' =>
      simp only [Addressing.field, Prod.mk.injEq, Json.Document.array.injEq, true_and] at h
      have hstring : Function.Injective fun value =>
          Json.Document.string (Utf16.ofString value) := fun v v' hv =>
        Utf16.ofString_injective (Json.Document.string.inj hv)
      rw [List.map_injective_iff.2 hstring h]

/-- An absent value is written as `null`, which no other value is. -/
theorem getD_null_inj {α : Type} {f : α → Json.Document} (hnull : ∀ a, f a ≠ .null)
    {o o' : Option α} (hinj : ∀ a ∈ o, ∀ a' ∈ o', f a = f a' → a = a')
    (h : (o.map f).getD .null = (o'.map f).getD .null) : o = o' := by
  cases o with
  | none =>
    cases o' with
    | none => rfl
    | some a' => exact absurd h.symm (hnull a')
  | some a =>
    cases o' with
    | none => exact absurd h (hnull a)
    | some a' => rw [hinj a rfl a' rfl h]

/-- What two requests have in common if they ask for the same, but for the order of the metadata. -/
structure SameRequest (a b : AcceptedRequest) : Prop where
  addressing : a.addressing = b.addressing
  applicationId : a.input.applicationId = b.input.applicationId
  body : a.input.body = b.input.body
  whatsAppSessionId : a.input.whatsAppSessionId = b.input.whatsAppSessionId
  scheduledAt : a.input.scheduledAt = b.input.scheduledAt
  maximumAttempts : a.input.maximumAttempts = b.input.maximumAttempts
  metadata : ∀ name, a.input.metadata.lookup name = b.input.metadata.lookup name

section Canonical

variable (environment : Environment)

/-- The canonical string says everything of a request but the order of metadata it does not put in
one. -/
theorem canonical_eq_iff (a b : AcceptedRequest) :
    a.canonical environment = b.canonical environment ↔
      SameRequest a b ∧ ¬ Reordered environment a.input.metadata b.input.metadata := by
  have hmetadata := sortedMetadata_eq_iff environment a.metadata_distinct b.metadata_distinct
  constructor
  · intro h
    have hdocument := Json.stringify_injective h
    simp only [canonicalRequest, Json.Document.object.injEq, List.cons.injEq, Prod.mk.injEq,
      Json.Document.string.injEq, true_and, and_true] at hdocument
    obtain ⟨happlication, haddressing, hbody, hsession, hscheduled, hattempts, hentries⟩ := hdocument
    have hsorted : sortedMetadata environment a.input.metadata =
        sortedMetadata environment b.input.metadata := by
      refine List.map_injective_iff.2 (fun e e' he => ?_) hentries
      simp only [Prod.mk.injEq, Json.Document.string.injEq] at he
      exact Prod.ext he.1 he.2
    obtain ⟨hlookup, hties⟩ := hmetadata.1 hsorted
    refine ⟨⟨Addressing.field_injective haddressing, ?_, hbody, ?_, ?_, ?_, hlookup⟩, hties⟩
    · exact uuidText_inj a.applicationId_bound b.applicationId_bound
        (Utf16.ofString_injective happlication)
    · exact getD_null_inj (fun _ => by simp) (fun s _ s' _ hs => Json.Document.string.inj hs) hsession
    · refine getD_null_inj (fun _ => by simp) (fun d hd d' hd' h => ?_) hscheduled
      exact Iso8601.format_inj (a.scheduledAt_bound d hd) (b.scheduledAt_bound d' hd')
        (Utf16.ofString_injective (Json.Document.string.inj h))
    · exact getD_null_inj (fun _ => by simp) (fun n _ n' _ hn => Json.Document.natural.inj hn)
        hattempts
  · rintro ⟨hsame, hties⟩
    have hsorted := hmetadata.2 ⟨hsame.metadata, hties⟩
    unfold AcceptedRequest.canonical CreateNotificationService.canonical canonicalRequest
    rw [hsame.addressing, hsame.applicationId, hsame.body, hsame.whatsAppSessionId,
      hsame.scheduledAt, hsame.maximumAttempts, hsorted]

/-- **The fingerprint.** Two accepted requests have one canonical string exactly if they ask for the
same, unless they do and metadata that the collation does not tell apart stands in different orders
in them. -/
theorem fingerprint_exact (a b : AcceptedRequest) :
    (a.canonical environment = b.canonical environment ↔ SameRequest a b) ↔
      ¬ (SameRequest a b ∧ Reordered environment a.input.metadata b.input.metadata) := by
  rw [canonical_eq_iff]
  tauto

end Canonical

/-! ## Two spellings of one name -/

namespace Spellings

/-- The canonical decomposition of one letter: an e and its accent. -/
def decompose (s : Text) : Text := s.flatMap fun u => if u = 0xE9 then [0x65, 0x301] else [u]

/-- A collation that compares what letters decompose into. -/
def environment : Environment where
  sha256 s := s.map (·.toUInt8)
  localeCompare := compareOn decompose
  collates := inferInstance

def content (metadata : Metadata) : NotificationContent :=
  Sample.content (Utf16.ofString "Hello") (by decide) metadata

def request (metadata : Metadata) : AcceptedRequest := Sample.request (content metadata)

/-- The name in its composed spelling first. -/
def composedFirst : Metadata := ⟨[([0xE9], [49]), ([0x65, 0x301], [50])], by decide, by decide⟩

def decomposedFirst : Metadata := ⟨[([0x65, 0x301], [50]), ([0xE9], [49])], by decide, by decide⟩

end Spellings

/-- Two requests with one map as metadata have two canonical strings. -/
theorem fingerprint_depends_on_order :
    ¬ ((Spellings.request Spellings.composedFirst).canonical Spellings.environment =
        (Spellings.request Spellings.decomposedFirst).canonical Spellings.environment ↔
      SameRequest (Spellings.request Spellings.composedFirst)
        (Spellings.request Spellings.decomposedFirst)) := by
  have hsame : SameRequest (Spellings.request Spellings.composedFirst)
      (Spellings.request Spellings.decomposedFirst) :=
    ⟨rfl, rfl, rfl, rfl, rfl, rfl, (perm_iff_lookup Spellings.composedFirst.distinct
      Spellings.decomposedFirst.distinct).1 (.swap _ _ _)⟩
  have hdiffer : (Spellings.request Spellings.composedFirst).canonical Spellings.environment ≠
      (Spellings.request Spellings.decomposedFirst).canonical Spellings.environment := by
    decide +kernel
  exact fun h => hdiffer (h.2 hsame)

end PublicApi

end NotificationPlatform
