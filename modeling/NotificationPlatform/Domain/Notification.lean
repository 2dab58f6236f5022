/-!
# The notification lifecycle and delivery acknowledgements

`packages/domain/src/notification/notification-status.ts` and `delivery-acknowledgement.ts`, and the
masking of a recipient in `packages/domain/src/recipient/phone-number.ts`.
-/

namespace NotificationPlatform

/-! ## Statuses -/

inductive NotificationStatus where
  | SCHEDULED
  | QUEUED
  | PROCESSING
  | SENT
  | DELIVERED
  | RETRYING
  | FAILED
  | CANCELLED
deriving DecidableEq, Repr

/-- The legal transitions. `FAILED` and `DELIVERED` are terminal, and `PROCESSING` cannot be
cancelled: a provider call may already be in flight. -/
def notificationStatusTransitions : NotificationStatus → List NotificationStatus
  | .SCHEDULED => [.QUEUED, .CANCELLED]
  | .QUEUED => [.PROCESSING, .CANCELLED]
  | .PROCESSING => [.SENT, .RETRYING, .FAILED]
  | .SENT => [.DELIVERED, .FAILED]
  | .DELIVERED => []
  | .RETRYING => [.PROCESSING, .CANCELLED, .FAILED]
  | .FAILED => []
  | .CANCELLED => []

def canTransitionNotificationStatus (fromStatus toStatus : NotificationStatus) : Bool :=
  (notificationStatusTransitions fromStatus).contains toStatus

def terminalNotificationStatuses : List NotificationStatus := [.DELIVERED, .FAILED, .CANCELLED]

def isTerminalNotificationStatus (status : NotificationStatus) : Bool :=
  terminalNotificationStatuses.contains status

/-- Terminal statuses are the ones no transition leaves. -/
theorem isTerminal_iff {status : NotificationStatus} :
    isTerminalNotificationStatus status = true ↔ notificationStatusTransitions status = [] := by
  cases status <;> decide

def isCancellableNotificationStatus (status : NotificationStatus) : Bool :=
  canTransitionNotificationStatus status .CANCELLED

theorem isCancellable_iff {status : NotificationStatus} :
    isCancellableNotificationStatus status = true ↔
      status = .SCHEDULED ∨ status = .QUEUED ∨ status = .RETRYING := by
  cases status <;> decide

/-! ## Acknowledgements -/

inductive DeliveryAcknowledgement where
  | error
  | pending
  | server
  | device
  | read
  | played
deriving DecidableEq, Repr

namespace DeliveryAcknowledgement

/-- The number the provider reports and the database stores. -/
def value : DeliveryAcknowledgement → Int
  | error => -1
  | pending => 0
  | server => 1
  | device => 2
  | read => 3
  | played => 4

/-- `isDeliveryAcknowledgement`, keeping the acknowledgement it found. -/
def ofValue? (v : Int) : Option DeliveryAcknowledgement :=
  [error, pending, server, device, read, played].find? fun a => a.value = v

@[simp] theorem ofValue?_value (a : DeliveryAcknowledgement) : ofValue? a.value = some a := by
  cases a <;> rfl

theorem value_injective {a b : DeliveryAcknowledgement} (h : a.value = b.value) : a = b := by
  have := congrArg ofValue? h
  simpa using this

end DeliveryAcknowledgement

def describeAcknowledgement : DeliveryAcknowledgement → String
  | .error => "ERROR"
  | .pending => "PENDING"
  | .server => "SERVER"
  | .device => "DEVICE"
  | .read => "READ"
  | .played => "PLAYED"

/-- Acknowledgements arrive out of order, so state advances by the maximum ever observed; an error
outranks everything. -/
def mergeAcknowledgements (current incoming : DeliveryAcknowledgement) :
    DeliveryAcknowledgement :=
  if incoming = .error then .error
  else if current = .error then .error
  else if current.value < incoming.value then incoming else current

def isDeliveredAcknowledgement (a : DeliveryAcknowledgement) : Bool :=
  DeliveryAcknowledgement.device.value ≤ a.value

def isReadAcknowledgement (a : DeliveryAcknowledgement) : Bool := a = .read ∨ a = .played

def isFailureAcknowledgement (a : DeliveryAcknowledgement) : Bool := a = .error

/-! ## Recipients -/

/-- What `\s` matches. -/
def isWhiteSpace (c : Char) : Bool :=
  (0x09 ≤ c.val ∧ c.val ≤ 0x0d) ∨ c.val = 0x20 ∨ c.val = 0xa0 ∨ c.val = 0x1680 ∨
    (0x2000 ≤ c.val ∧ c.val ≤ 0x200a) ∨ c.val = 0x2028 ∨ c.val = 0x2029 ∨ c.val = 0x202f ∨
    c.val = 0x205f ∨ c.val = 0x3000 ∨ c.val = 0xfeff

/-- `FORMATTING_CHARACTERS`. -/
def isFormattingCharacter (c : Char) : Bool :=
  isWhiteSpace c || c = '(' || c = ')' || c = '-' || c = '.'

/-- The white space at the ends is among what is removed. -/
def normalizePhoneNumber (value : String) : String :=
  match value.toList.filter fun c => !isFormattingCharacter c with
  | '0' :: '0' :: rest => String.ofList ('+' :: rest)
  | trimmed => String.ofList trimmed

/-- `E164_PATTERN`. -/
def isValidPhoneNumber (value : String) : Bool :=
  match value.toList with
  | '+' :: c :: digits => ('1' ≤ c ∧ c ≤ '9') ∧ 7 ≤ digits.length ∧ digits.length ≤ 14 ∧
      digits.all fun d => '0' ≤ d ∧ d ≤ '9'
  | _ => false

/-- `none` is the `InvalidPhoneNumberError`. -/
def parsePhoneNumber (value : String) : Option String :=
  if isValidPhoneNumber (normalizePhoneNumber value) then some (normalizePhoneNumber value)
  else none

example : parsePhoneNumber "0055 (11) 99999-8888" = some "+5511999998888" := by decide

theorem isFormattingCharacter_digit {c : Char} (h : '0' ≤ c ∧ c ≤ '9') :
    isFormattingCharacter c = false := by
  have hbounds : 48 ≤ c.toNat ∧ c.toNat ≤ 57 := h
  have hten : ∀ n < 10, isFormattingCharacter (Char.ofNat (48 + n)) = false := by decide
  have hchar := hten (c.toNat - 48) (by omega)
  rwa [show 48 + (c.toNat - 48) = c.toNat by omega, Char.ofNat_toNat] at hchar

/-- A number in international format is taken as it is. -/
theorem parsePhoneNumber_of_isValid {value : String} (h : isValidPhoneNumber value = true) :
    parsePhoneNumber value = some value := by
  have hnormal : normalizePhoneNumber value = value := by
    unfold isValidPhoneNumber at h
    split at h
    · rename_i c digits hvalue
      simp only [decide_eq_true_eq, List.all_eq_true] at h
      obtain ⟨⟨hfirst, hlast⟩, -, -, hdigits⟩ := h
      have hkept : value.toList.filter (fun c => !isFormattingCharacter c) = value.toList := by
        refine List.filter_eq_self.2 fun d hd => ?_
        rw [hvalue, List.mem_cons, List.mem_cons] at hd
        rcases hd with rfl | rfl | hd
        · decide
        · have hzero : '0' ≤ d := Nat.le_trans (by decide : '0'.toNat ≤ '1'.toNat) hfirst
          rw [isFormattingCharacter_digit ⟨hzero, hlast⟩]
          rfl
        · rw [isFormattingCharacter_digit (hdigits d hd)]
          rfl
      unfold normalizePhoneNumber
      rw [hkept, hvalue]
      exact (congrArg String.ofList hvalue.symm).trans String.ofList_toList
    · cases h
  rw [parsePhoneNumber, hnormal, if_pos h]

/-- Keeps the first two digits and the last four. -/
def maskPhoneNumberForLog (phoneNumber : String) : String :=
  let digits := phoneNumber.toList.filter Char.isDigit
  if digits.length ≤ 4 then String.ofList (List.replicate digits.length '*')
  else String.ofList ('+' :: digits.take 2 ++ List.replicate (digits.length - 2 - 4) '*' ++
    digits.drop (digits.length - 4))

end NotificationPlatform
