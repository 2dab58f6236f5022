import NotificationPlatform.Segments.Last
import NotificationPlatform.Provider.Webhook

/-!
# The identifier of a sent message

`sendTextMessage` of `packages/provider-whatsapp/src/waha-provider.ts`, from the answer of the send
endpoint on. The answer has one of three shapes, and the identifier in it is raw or serialised.
`normalizeProviderMessageId` takes the texts that name a raw identifier to it, and no others.
-/

namespace NotificationPlatform

open Json (Value required)

/-! ## Identifiers -/

theorem normalizeProviderMessageId_eq (text : String) :
    normalizeProviderMessageId text = String.ofList (Segments.reduce '_' text.toList) := by
  have hlast : (text.toList.splitOn '_').getLast?.getD [] = Segments.last '_' text.toList := by
    rw [List.getLast?_eq_getLast_of_ne_nil (List.splitOn_ne_nil '_' text.toList)]
    rfl
  simp only [normalizeProviderMessageId, hlast, Segments.reduce]
  cases Segments.last '_' text.toList with
  | nil => simp
  | cons c rest => simp

/-- A message identifier as WhatsApp gives it. -/
@[ext]
structure RawMessageId where
  value : String
  nonempty : value ≠ ""
  plain : '_' ∉ value.toList

namespace RawMessageId

variable {r r' : RawMessageId} {identifier : String}

/-- The raw identifier, or a serialised one that ends in it after any prefix. -/
def NamedBy (r : RawMessageId) (identifier : String) : Prop :=
  identifier = r.value ∨ ∃ p, identifier = p ++ "_" ++ r.value

/-- **An identifier reduces to the raw one it names**, and to no other. -/
theorem normalize_eq_iff :
    normalizeProviderMessageId identifier = r.value ↔ r.NamedBy identifier := by
  have hr : r.value.toList ≠ [] := by simpa using r.nonempty
  have hreduce : Segments.reduce '_' identifier.toList = r.value.toList ↔
      identifier.toList = r.value.toList ∨ ∃ p, identifier.toList = p ++ '_' :: r.value.toList :=
    Segments.reduce_eq_iff hr r.plain
  rw [normalizeProviderMessageId_eq, NamedBy, ← String.toList_inj, String.toList_ofList, hreduce,
    String.toList_inj]
  refine or_congr_right ⟨?_, ?_⟩
  · rintro ⟨p, hp⟩
    refine ⟨String.ofList p, String.toList_inj.1 ?_⟩
    simpa using hp
  · rintro ⟨p, rfl⟩
    exact ⟨p.toList, by simp⟩

theorem namedBy_self (r : RawMessageId) : r.NamedBy r.value := .inl rfl

theorem namedBy_serialized (r : RawMessageId) (p : String) : r.NamedBy (p ++ "_" ++ r.value) :=
  .inr ⟨p, rfl⟩

end RawMessageId

theorem normalizeProviderMessageId_idem (text : String) :
    normalizeProviderMessageId (normalizeProviderMessageId text) =
      normalizeProviderMessageId text := by
  simp only [normalizeProviderMessageId_eq, String.toList_ofList, Segments.reduce_idem]

/-- What ends in the separator is left as it is. -/
example : normalizeProviderMessageId "true_5511999998888@c.us_" = "true_5511999998888@c.us_" := by
  decide +kernel

/-! ## The answer of the send endpoint -/

namespace WahaProvider

/-- `z.object({ id: messageIdentifier })`. -/
def flatShape (value : Value) : Option String := do
  let fields ← value.asObject
  required fields "id" Value.asNonEmptyString

def keyShape (value : Value) : Option String := do
  let fields ← value.asObject
  required fields "key" flatShape

def serializedShape (value : Value) : Option String := do
  let fields ← value.asObject
  required fields "id" fun id => do
    let fields ← id.asObject
    required fields "_serialized" Value.asNonEmptyString

/-- The first shape that fits. -/
def sentMessageResponseSchema (value : Value) : Option String :=
  keyShape value <|> flatShape value <|> serializedShape value

/-- What the provider accepted and this version cannot read. -/
def responseUnreadable : ProviderFailure :=
  createProviderFailure .provider_response_unreadable
    "The provider accepted the message and answered in a shape this version cannot read."

/-- What `sendTextMessage` makes of what `request` gave; an empty body has no value. -/
def sendTextMessage : ProviderResult (Option Value) → ProviderResult SentMessage
  | .failed failure => .failed failure
  | .succeeded value =>
    match value.bind sentMessageResponseSchema with
    | none => .failed responseUnreadable
    | some identifier => .succeeded { providerMessageId := normalizeProviderMessageId identifier }

/-- Every shape is read. -/
example : let shapes : List Value := [
      .object [("key", .object [("fromMe", .bool true), ("id", .string "3EB0")])],
      .object [("id", .string "true_5511999998888@c.us_3EB0")],
      .object [("id", .object [("_serialized", .string "true_5511999998888@c.us_3EB0")])]]
    shapes.map (fun body => sendTextMessage (.succeeded (some body))) =
      List.replicate 3 (.succeeded { providerMessageId := "3EB0" }) := by
  decide +kernel

/-- A send is recorded under the raw identifier its answer names. -/
theorem sendTextMessage_named {body : Value} {identifier : String} {r : RawMessageId}
    (h : sentMessageResponseSchema body = some identifier) (hr : r.NamedBy identifier) :
    sendTextMessage (.succeeded (some body)) = .succeeded { providerMessageId := r.value } := by
  simp only [sendTextMessage, Option.bind_some, h, RawMessageId.normalize_eq_iff.2 hr]

end WahaProvider

end NotificationPlatform
