import Mathlib.Data.List.Find
import NotificationPlatform.Provider.ErrorMessage

/-!
# Chat addresses in failure messages

The failure message is followed unit by unit, each with its place in the provider's message. No
digit of `user@server` is left in place: the pattern matches from each of them on. In
`user:device@server` it matches from the device on, so the digits of the user are left, up to where
the message is cut.
-/

namespace NotificationPlatform

namespace WahaProvider

open Utf16
open Json (Tree)

/-! ## In place -/

def inPlace (message : Text) : Placed :=
  replacePlaced spacePattern [32] 0
    (replacePlaced CHAT_ADDRESS_PATTERN (ofString "a chat") 0 (placedFrom 0 message))

def isSpace (x : UInt16 × Option Nat) : Bool := Utf16.isWhiteSpace x.1

def trimPlaced (s : Placed) : Placed := (s.dropWhile isSpace).rdropWhile isSpace

/-- The failure message that the provider's message gives, each unit with its place. -/
def shown (message : Text) : Placed :=
  (trimPlaced (inPlace message)).take MAXIMUM_ERROR_MESSAGE_LENGTH

theorem units_inPlace (message : Text) : units (inPlace message) = masked message := by
  rw [inPlace, units_replacePlaced, units_replacePlaced, units_placedFrom]
  rfl

theorem units_trimPlaced (s : Placed) : units (trimPlaced s) = trim (units s) := by
  simp only [units, trimPlaced, trim, List.rdropWhile, List.dropWhile_map, ← List.map_reverse]
  rfl

theorem units_shown (message : Text) :
    units (shown message) = slice (trim (masked message)) 0 MAXIMUM_ERROR_MESSAGE_LENGTH := by
  rw [shown, units, List.map_take, ← units, units_trimPlaced, units_inPlace, slice, List.drop_zero]

theorem toSafeErrorMessage_eq (text : Text) : toSafeErrorMessage text =
    (readMessage text).bind fun message =>
      if shown message = [] then none else some (units (shown message)) := by
  refine Option.bind_congr fun message _ => ?_
  have hempty : (trim (masked message)).length = 0 ↔ shown message = [] := by
    rw [shown, List.take_eq_nil_iff, ← units_inPlace, ← units_trimPlaced, units, List.length_map,
      List.length_eq_zero_iff]
    exact (or_iff_right (by decide)).symm
  rw [units_shown]
  exact if_congr hempty rfl rfl

/-! ## Where the units are from -/

theorem mem_replacePlaced {pattern : Pattern} {replacement : Text} {skip : Nat} {s : Placed}
    {x : UInt16 × Option Nat} (h : x ∈ replacePlaced pattern replacement skip s) :
    (x.2 = none ∧ x.1 ∈ replacement) ∨ x ∈ s := by
  refine (replacePlaced_kept h).imp_right ?_
  rintro ⟨before, after, rfl, -⟩
  exact List.mem_append_right before List.mem_cons_self

theorem mem_of_mem_shown {message : Text} {x : UInt16 × Option Nat} (h : x ∈ shown message) :
    x ∈ inPlace message := by
  have htrim : x ∈ trimPlaced (inPlace message) := List.mem_of_mem_take h
  have hstart := List.rdropWhile_prefix _ _ |>.subset htrim
  exact (List.dropWhile_sublist _).subset hstart

/-- Every unit was inserted, or is from the message. -/
theorem mem_inPlace {message : Text} {x : UInt16 × Option Nat} (h : x ∈ inPlace message) :
    (x.2 = none ∧ x.1 ∈ 32 :: ofString "a chat") ∨
      ∃ i, x.2 = some i ∧ message[i]? = some x.1 ∧ i < message.length := by
  rcases mem_replacePlaced h with ⟨hnone, hspace⟩ | h
  · exact .inl ⟨hnone, List.mem_cons.2 (.inl (List.mem_singleton.1 hspace))⟩
  · rcases mem_replacePlaced h with ⟨hnone, hmask⟩ | h
    · exact .inl ⟨hnone, List.mem_cons_of_mem _ hmask⟩
    · obtain ⟨i, hplace, hunit, hi⟩ := mem_placedFrom h
      exact .inr ⟨i, by rw [hplace, Nat.zero_add], hunit, hi⟩

/-- A unit that is left in place starts no address. -/
theorem no_match_of_shown {message : Text} {i : Nat} {u : UInt16}
    (h : (u, some i) ∈ shown message) : CHAT_ADDRESS_PATTERN (message.drop i) = none := by
  rcases mem_replacePlaced (mem_of_mem_shown h) with ⟨hnone, -⟩ | h
  · cases hnone
  · rcases replacePlaced_kept h with ⟨hnone, -⟩ | ⟨before, after, hplaced, hmatch⟩
    · cases hnone
    · rw [← Nat.zero_add i] at hplaced
      rw [← drop_of_placedFrom hplaced]
      exact hmatch

/-! ## Addresses -/

/-- An address of a chat, or of one device of an account. -/
structure ChatAddress where
  user : Text
  device : Option Text
  server : Text
  user_units : ∀ u ∈ user, isAddressUnit u = true
  device_digits : ∀ d ∈ device, d ≠ [] ∧ ∀ u ∈ d, Json.isDigit u = true
  server_mem : server ∈ chatServers

namespace ChatAddress

/-- What follows the user part. -/
def rest (address : ChatAddress) : Text :=
  match address.device with
  | none => atSign :: address.server
  | some device => 58 :: (device ++ atSign :: address.server)

def text (address : ChatAddress) : Text := address.user ++ address.rest

end ChatAddress

theorem isAddressUnit_of_isDigit {u : UInt16} (h : Json.isDigit u = true) :
    isAddressUnit u = true := by
  simp only [Json.isDigit, decide_eq_true_eq] at h
  simp [isAddressUnit, h]

theorem not_isWhiteSpace_of_isDigit {u : UInt16} (h : Json.isDigit u = true) :
    Utf16.isWhiteSpace u = false := by
  have hdigits : ∀ n ∈ List.range' 48 10, Utf16.isWhiteSpace n.toUInt16 = false := by decide
  simp only [Json.isDigit, decide_eq_true_eq, UInt16.le_iff_toNat_le] at h
  have hlow : 48 ≤ u.toNat := h.1
  have hhigh : u.toNat ≤ 57 := h.2
  have hu : u.toNat.toUInt16 = u := UInt16.ofNat_toNat
  rw [← hu]
  exact hdigits _ (List.mem_range'_1.2 ⟨hlow, by omega⟩)

/-- `u`, further units of an address, and another unit. -/
theorem span_address {u : UInt16} {name : Text} {v : UInt16} {t : Text}
    (hu : isAddressUnit u = true) (hname : ∀ w ∈ name, isAddressUnit w = true)
    (hv : isAddressUnit v = false) :
    (u :: (name ++ v :: t)).takeWhile isAddressUnit = u :: name ∧
      (u :: (name ++ v :: t)).dropWhile isAddressUnit = v :: t := by
  rw [List.takeWhile_cons_of_pos hu, List.dropWhile_cons_of_pos hu,
    List.takeWhile_append_of_pos hname, List.dropWhile_append_of_pos hname,
    List.takeWhile_cons_of_neg (by simp [hv]), List.dropWhile_cons_of_neg (by simp [hv]),
    List.append_nil]
  exact ⟨rfl, rfl⟩

/-- The pattern matches from each digit of the name before `@` on. -/
theorem match_of_name {u : UInt16} {name server after : Text} (hu : Json.isDigit u = true)
    (hname : ∀ w ∈ name, isAddressUnit w = true) (hserver : server ∈ chatServers) :
    CHAT_ADDRESS_PATTERN (u :: (name ++ atSign :: (server ++ after))) ≠ none := by
  obtain ⟨htake, hdrop⟩ := span_address (isAddressUnit_of_isDigit hu) hname
    (show isAddressUnit atSign = false by decide) (t := server ++ after)
  have hdigit : ((u :: name).any Json.isDigit) = true := by simp [hu]
  have hfound : (chatServers.find? fun server' => server'.isPrefixOf (server ++ after)).isSome := by
    rw [List.find?_isSome]
    exact ⟨server, hserver, List.isPrefixOf_iff_prefix.2 (List.prefix_append server after)⟩
  obtain ⟨server', hserver'⟩ := Option.isSome_iff_exists.1 hfound
  rw [CHAT_ADDRESS_PATTERN, hdrop]
  simp only [htake, hdigit, and_self, if_true, hserver', Option.map_some]
  exact Option.some_ne_none _

/-- It does not match from the units before `:` on. -/
theorem no_match_of_device {u : UInt16} {name t : Text} (hu : Json.isDigit u = true)
    (hname : ∀ w ∈ name, isAddressUnit w = true) :
    CHAT_ADDRESS_PATTERN (u :: (name ++ 58 :: t)) = none := by
  obtain ⟨-, hdrop⟩ := span_address (isAddressUnit_of_isDigit hu) hname
    (show isAddressUnit 58 = false by decide) (t := t)
  rw [CHAT_ADDRESS_PATTERN, hdrop]
  exact if_neg fun h => absurd h.1 (by decide)

/-! ## What a device address separates -/

theorem server_no_digit {server : Text} (h : server ∈ chatServers) :
    ∀ u ∈ server, Json.isDigit u = false := by
  have hall : chatServers.all (fun server => server.all fun u => !Json.isDigit u) = true := by
    decide +kernel
  intro u hu
  have hnot := List.all_eq_true.1 (List.all_eq_true.1 hall server h) u hu
  simpa using hnot

theorem isPrefixOf_append_cons {l a t : Text} {u : UInt16} (h : u ∉ l) :
    l.isPrefixOf (a ++ u :: t) = l.isPrefixOf a := by
  induction l generalizing a with
  | nil => simp
  | cons x l ih =>
    obtain ⟨hx, hl⟩ := not_or.1 (mt List.mem_cons.2 h)
    cases a with
    | nil => simp [List.isPrefixOf, Ne.symm hx]
    | cons y a => simp only [List.cons_append, List.isPrefixOf, ih hl]

theorem takeWhile_append_cons {α : Type*} {p : α → Bool} {x : α} (h : p x = false) (s t : List α) :
    (s ++ x :: t).takeWhile p = s.takeWhile p := by
  rw [List.takeWhile_append, List.takeWhile_cons_of_neg (by simp [h]), List.append_nil]
  split
  · rename_i hlength
    exact ((List.takeWhile_prefix p).eq_of_length hlength).symm
  · rfl

theorem dropWhile_append_cons {α : Type*} {p : α → Bool} {x : α} (h : p x = false) (s t : List α) :
    (s ++ x :: t).dropWhile p = s.dropWhile p ++ x :: t := by
  rw [List.dropWhile_append, List.dropWhile_cons_of_neg (by simp [h])]
  split
  · rename_i hempty
    rw [List.isEmpty_iff.1 hempty, List.nil_append]
  · rfl

/-- No match reaches into the user part of a device's address. -/
theorem separates_address {s name t : Text} {u : UInt16} (hu : Json.isDigit u = true)
    (hname : ∀ w ∈ name, isAddressUnit w = true) :
    Separates CHAT_ADDRESS_PATTERN s (u :: (name ++ 58 :: t)) := by
  intro r _ _
  have hdrop : (r ++ u :: (name ++ 58 :: t)).dropWhile isAddressUnit =
      if (r.dropWhile isAddressUnit).isEmpty then 58 :: t
      else r.dropWhile isAddressUnit ++ u :: (name ++ 58 :: t) := by
    rw [List.dropWhile_append, (span_address (isAddressUnit_of_isDigit hu) hname
      (show isAddressUnit 58 = false by decide)).2]
  have hlength := congrArg List.length
    (List.takeWhile_append_dropWhile (p := isAddressUnit) (l := r))
  rw [CHAT_ADDRESS_PATTERN, CHAT_ADDRESS_PATTERN, hdrop]
  cases hr : r.dropWhile isAddressUnit with
  | nil =>
    refine ⟨?_, nofun⟩
    exact if_neg fun h => absurd h.1 (by decide)
  | cons v rest =>
    have htake : (r ++ u :: (name ++ 58 :: t)).takeWhile isAddressUnit =
        r.takeWhile isAddressUnit := by
      rw [List.takeWhile_append, if_neg]
      intro hall
      rw [hr, List.length_append, hall, List.length_cons] at hlength
      omega
    have hservers : (chatServers.find? fun server =>
          server.isPrefixOf (rest ++ u :: (name ++ 58 :: t))) =
        chatServers.find? fun server => server.isPrefixOf rest := by
      refine List.find?_congr fun server hserver => isPrefixOf_append_cons fun hmem => ?_
      rw [server_no_digit hserver u hmem] at hu
      cases hu
    simp only [List.isEmpty_cons, Bool.false_eq_true, if_false, List.cons_append, htake, hservers]
    refine ⟨trivial, fun n hn => ?_⟩
    split at hn
    · obtain ⟨server, hfound, rfl⟩ := Option.map_eq_some_iff.1 hn
      have hprefix : server.isPrefixOf rest = true :=
        List.find?_some (p := fun server : Text => server.isPrefixOf rest) hfound
      have hle := (List.isPrefixOf_iff_prefix.1 hprefix).length_le
      rw [hr, List.length_append, List.length_cons] at hlength
      omega
    · cases hn

theorem separates_space {s t : Text} {u : UInt16} (hu : Utf16.isWhiteSpace u = false) :
    Separates spacePattern s (u :: t) := by
  intro r _ _
  rw [spacePattern, spacePattern, takeWhile_append_cons hu]
  refine ⟨rfl, fun n hn => ?_⟩
  split at hn
  · cases hn
  · cases hn
    exact (List.takeWhile_prefix _).length_le

/-! ## What is left in place -/

/-- How much of the failure message stands before what follows the text. -/
def shownBefore (before : Text) : Nat := ((masked before).dropWhile Utf16.isWhiteSpace).length

/-- The user part of a device's address is left in place. -/
theorem inPlace_device {before name t : Text} {u : UInt16} (hu : Json.isDigit u = true)
    (hname : ∀ w ∈ name, isAddressUnit w = true) :
    ∃ after, inPlace (before ++ u :: (name ++ 58 :: t)) =
      inPlace before ++ (u, some before.length) :: after := by
  have hspace : Utf16.isWhiteSpace u = false := not_isWhiteSpace_of_isDigit hu
  have hplaced : placedFrom 0 (before ++ u :: (name ++ 58 :: t)) = placedFrom 0 before ++
      (u, some before.length) :: placedFrom (before.length + 1) (name ++ 58 :: t) := by
    rw [placedFrom_append, Nat.zero_add]
    rfl
  have hmask : Separates CHAT_ADDRESS_PATTERN (units (placedFrom 0 before)) (units
      ((u, some before.length) :: placedFrom (before.length + 1) (name ++ 58 :: t))) := by
    have hunits : units ((u, some before.length) ::
        placedFrom (before.length + 1) (name ++ 58 :: t)) = u :: (name ++ 58 :: t) :=
      congrArg (u :: ·) (units_placedFrom _ _)
    rw [units_placedFrom, hunits]
    exact separates_address hu hname
  have hno : CHAT_ADDRESS_PATTERN
      (u :: units (placedFrom (before.length + 1) (name ++ 58 :: t))) = none := by
    rw [units_placedFrom]
    exact no_match_of_device hu hname
  have hrun : ∀ s : Text, spacePattern (u :: s) = none := by
    intro s
    rw [spacePattern, List.takeWhile_cons_of_neg (by simp [hspace])]
    rfl
  rw [inPlace, inPlace, hplaced, replacePlaced_append hmask (Nat.zero_le _),
    replacePlaced_cons hno, replacePlaced_append (separates_space hspace) (Nat.zero_le _),
    replacePlaced_cons (hrun _)]
  exact ⟨_, rfl⟩

/-- **A digit before a device is shown exactly where the failure message is not cut before it.** -/
theorem mem_shown_device_iff {before name t : Text} {u : UInt16} (hu : Json.isDigit u = true)
    (hname : ∀ w ∈ name, isAddressUnit w = true) :
    (u, some before.length) ∈ shown (before ++ u :: (name ++ 58 :: t)) ↔
      shownBefore before < MAXIMUM_ERROR_MESSAGE_LENGTH := by
  obtain ⟨after, hafter⟩ : ∃ after, inPlace (before ++ u :: (name ++ 58 :: t)) =
      inPlace before ++ (u, some before.length) :: after := inPlace_device hu hname
  have hspace : Utf16.isWhiteSpace u = false := not_isWhiteSpace_of_isDigit hu
  have htrim : trimPlaced (inPlace (before ++ u :: (name ++ 58 :: t))) =
      (inPlace before).dropWhile isSpace ++ (u, some before.length) ::
        after.rdropWhile isSpace := by
    have hmark : isSpace (u, some before.length) = false := hspace
    rw [trimPlaced, hafter, dropWhile_append_cons hmark, List.rdropWhile, List.reverse_append,
      List.reverse_cons, List.append_assoc, List.singleton_append, dropWhile_append_cons hmark,
      List.reverse_append, List.reverse_cons, List.reverse_reverse, List.append_assoc,
      List.singleton_append]
    rfl
  have hlength : ((inPlace before).dropWhile isSpace).length = shownBefore before := by
    rw [shownBefore, ← units_inPlace, units, List.dropWhile_map, List.length_map]
    rfl
  have hnew : (u, some before.length) ∉ (inPlace before).dropWhile isSpace := by
    intro hmem
    rcases mem_inPlace ((List.dropWhile_sublist _).subset hmem) with ⟨hnone, -⟩ | ⟨i, hi, -, hlt⟩
    · cases hnone
    · rw [← Option.some.inj hi] at hlt
      exact lt_irrefl _ hlt
  rw [shown, htrim, ← hlength]
  constructor
  · intro hmem
    by_contra hle
    rw [List.take_append_of_le_length (Nat.not_lt.1 hle)] at hmem
    exact hnew (List.mem_of_mem_take hmem)
  · intro hlt
    obtain ⟨k, hk⟩ := Nat.exists_eq_add_of_lt hlt
    rw [List.take_append, hk, Nat.add_assoc, Nat.add_sub_cancel_left, List.take_succ_cons]
    exact List.mem_append_right _ List.mem_cons_self

/-! ## Nothing but the message -/

/-- An error text is a string, or a list of strings joined. -/
inductive TextOf : Tree → Text → Prop where
  | string (s : Text) : TextOf (.string s) s
  | array (messages : List Text) : TextOf (.array (messages.map .string)) (joined messages)

/-- The message of a body is its `exception.message` or its `message`. -/
inductive MessageOf : Tree → Text → Prop where
  | exception {members inner : List (Text × Tree)} {value : Tree} {message : Text}
      (exception : Tree.property (ofString "exception") members = some (.object inner))
      (field : Tree.property (ofString "message") inner = some value)
      (text : TextOf value message) : MessageOf (.object members) message
  | message {members : List (Text × Tree)} {value : Tree} {message : Text}
      (field : Tree.property (ofString "message") members = some value)
      (text : TextOf value message) : MessageOf (.object members) message

theorem textOf_errorTextSchema {value : Tree} {message : Text}
    (h : errorTextSchema value = some message) : TextOf value message := by
  cases value with
  | string s =>
    rw [errorTextSchema] at h
    split at h
    · cases h
      exact .string _
    · cases h
  | array items =>
    obtain ⟨messages, hitems, rfl⟩ := Option.map_eq_some_iff.1 h
    have hstrings : items = messages.map .string := by
      clear h
      induction items generalizing messages with
      | nil =>
        cases hitems
        rfl
      | cons item items ih =>
        simp only [List.mapM_cons, Option.bind_eq_bind, Option.bind_eq_some_iff, Option.pure_def,
          Option.some.injEq] at hitems
        obtain ⟨s, hs, rest, hrest, rfl⟩ := hitems
        cases item with
        | string t =>
          cases hs
          rw [ih rest hrest, List.map_cons]
        | null => cases hs
        | boolean => cases hs
        | number => cases hs
        | array => cases hs
        | object => cases hs
    rw [hstrings]
    exact .array messages
  | null => cases h
  | boolean => cases h
  | number => cases h
  | object => cases h

theorem optionalField_eq_some {schema : Tree → Option Text} {field : Option Tree} {message : Text}
    (h : optionalField schema field = some (some message)) :
    ∃ value, field = some value ∧ schema value = some message := by
  cases field with
  | none => cases h
  | some value =>
    obtain ⟨m, hm, heq⟩ := Option.map_eq_some_iff.1 h
    cases heq
    exact ⟨value, rfl, hm⟩

theorem messageOf_readMessage {text message : Text} {value : Tree}
    (hvalue : Json.parse text = some value) (h : readMessage text = some message) :
    MessageOf value message := by
  rw [readMessage, hvalue] at h
  obtain ⟨parsed, hparsed, hmessage⟩ := Option.bind_eq_some_iff.1 h
  cases value with
  | object members =>
    simp only [errorBodySchema, Option.bind_eq_bind, Option.bind_eq_some_iff, Option.pure_def,
      Option.some.injEq] at hparsed
    obtain ⟨exception, hexception, other, hother, rfl⟩ := hparsed
    cases exception with
    | some m =>
      cases hmessage
      obtain ⟨inner, hinner, hschema⟩ := optionalField_eq_some hexception
      cases inner with
      | object fields =>
        obtain ⟨field, hfield, htext⟩ := Option.bind_eq_some_iff.1 hschema
        exact .exception hinner hfield (textOf_errorTextSchema htext)
      | null => cases hschema
      | boolean => cases hschema
      | number => cases hschema
      | string => cases hschema
      | array => cases hschema
    | none =>
      obtain rfl : other = some message := hmessage
      obtain ⟨field, hfield, htext⟩ := optionalField_eq_some hother
      exact .message hfield (textOf_errorTextSchema htext)
  | null => cases hparsed
  | boolean => cases hparsed
  | number => cases hparsed
  | string => cases hparsed
  | array => cases hparsed

/-! ## The user part of an address -/

/-- No digit of the user part of an address in the message is shown in its place. -/
def Masks (message : Text) : Prop :=
  ∀ (before after : Text) (address : ChatAddress), message = before ++ address.text ++ after →
    ∀ left u right, address.user = left ++ u :: right → Json.isDigit u = true →
      (u, some (before ++ left).length) ∉ shown message

/-- The message names a device of an account, and the failure message is not cut before a digit of
the account. -/
def Exposes (message : Text) : Prop :=
  ∃ (before after : Text) (address : ChatAddress), message = before ++ address.text ++ after ∧
    address.device ≠ none ∧ ∃ left u right, address.user = left ++ u :: right ∧
      Json.isDigit u = true ∧ shownBefore (before ++ left) < MAXIMUM_ERROR_MESSAGE_LENGTH

theorem masks_iff (message : Text) : Masks message ↔ ¬ Exposes message := by
  have hsplit : ∀ {before after left right : Text} {u : UInt16} {address : ChatAddress},
      message = before ++ address.text ++ after → address.user = left ++ u :: right →
        message = (before ++ left) ++ u :: (right ++ (address.rest ++ after)) := by
    intro before after left right u address hmessage huser
    rw [hmessage, ChatAddress.text, huser]
    simp only [List.append_assoc, List.cons_append]
  have hunits : ∀ {left right : Text} {u : UInt16} {address : ChatAddress},
      address.user = left ++ u :: right → ∀ w ∈ right, isAddressUnit w = true := by
    intro left right u address huser w hw
    refine address.user_units w ?_
    rw [huser]
    exact List.mem_append_right _ (List.mem_cons_of_mem u hw)
  constructor
  · rintro hmasks ⟨before, after, address, hmessage, hdevice, left, u, right, huser, hu, hcut⟩
    refine hmasks before after address hmessage left u right huser hu ?_
    obtain ⟨device, hdevice⟩ := Option.ne_none_iff_exists'.1 hdevice
    rw [hsplit hmessage huser, ChatAddress.rest, hdevice]
    exact (mem_shown_device_iff hu (hunits huser)).2 hcut
  · intro hexposes before after address hmessage left u right huser hu hshown
    cases hdevice : address.device with
    | none =>
      refine absurd (no_match_of_shown hshown) ?_
      rw [hsplit hmessage huser, List.drop_left, ChatAddress.rest, hdevice]
      exact match_of_name hu (hunits huser) address.server_mem
    | some device =>
      refine hexposes ⟨before, after, address, hmessage, by simp [hdevice], left, u, right, huser,
        hu, ?_⟩
      rw [hsplit hmessage huser, ChatAddress.rest, hdevice] at hshown
      exact (mem_shown_device_iff hu (hunits huser)).1 hshown

/-- **A failure message is made of the provider's message alone, and shows no digit of an account in
its place exactly if no device of the account is named** before the message is cut. -/
theorem toSafeErrorMessage_masks (text : Text) :
    (∀ failure, toSafeErrorMessage text = some failure →
      ∃ message, readMessage text = some message ∧ failure = units (shown message) ∧
        (∀ value, Json.parse text = some value → MessageOf value message) ∧
          ∀ x ∈ shown message, (x.2 = none ∧ x.1 ∈ 32 :: ofString "a chat") ∨
            ∃ i, x.2 = some i ∧ message[i]? = some x.1) ∧
      ((∀ message, readMessage text = some message → Masks message) ↔
        ∀ message, readMessage text = some message → ¬ Exposes message) := by
  refine ⟨fun failure hfailure => ?_, ?_⟩
  · rw [toSafeErrorMessage_eq] at hfailure
    obtain ⟨message, hmessage, hsafe⟩ := Option.bind_eq_some_iff.1 hfailure
    split at hsafe
    · cases hsafe
    · cases hsafe
      refine ⟨message, hmessage, rfl, fun value hvalue => messageOf_readMessage hvalue hmessage,
        fun x hx => ?_⟩
      refine (mem_inPlace (mem_of_mem_shown hx)).imp_right ?_
      rintro ⟨i, hplace, hunit, -⟩
      exact ⟨i, hplace, hunit⟩
  · exact forall_congr' fun message => imp_congr_right fun _ => masks_iff message

namespace Sample

/-- What an engine answers when it does not know the account. -/
def errorBody : Text :=
  ofString ("\x7b\"exception\":\x7b\"message\":\"No LID for 5511999998888:12@c.us\"\x7d," ++
    "\"id\":1\x7d")

def device : ChatAddress where
  user := ofString "5511999998888"
  device := some (ofString "12")
  server := ofString "c.us"
  user_units := List.all_eq_true.1 (by decide +kernel)
  device_digits := by
    rintro d ⟨⟩
    exact ⟨by decide +kernel, List.all_eq_true.1 (by decide +kernel)⟩
  server_mem := by decide +kernel

def errorMessage : Text := ofString "No LID for " ++ device.text

end Sample

/-- The number of an account is in the reason that the API gives. -/
theorem toSafeErrorMessage_masks_fails :
    toSafeErrorMessage Sample.errorBody = some (ofString "No LID for 5511999998888:a chat") ∧
      readMessage Sample.errorBody = some Sample.errorMessage ∧ ¬ Masks Sample.errorMessage := by
  refine ⟨by decide +kernel, by decide +kernel, fun hmasks => ?_⟩
  refine hmasks (ofString "No LID for ") [] Sample.device (List.append_nil _).symm [] 53
    (ofString "511999998888") (by decide +kernel) (by decide) ?_
  decide +kernel

end WahaProvider

end NotificationPlatform
