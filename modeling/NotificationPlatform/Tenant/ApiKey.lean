import NotificationPlatform.Utf16.Text

/-!
# API keys

`packages/domain/src/tenant/api-key-format.ts`, which writes and reads a token, and
`packages/security/src/api-key.ts`, which draws one. The hash of a secret under a pepper is a
parameter. Random bytes are given as the chunks that the calls of `randomBytes` answer with.
-/

namespace NotificationPlatform

namespace ApiKey

open Utf16

abbrev Buffer := List UInt8

/-! ## `api-key-format.ts` -/

inductive ApiKeyEnvironment where
  | live
  | test
deriving DecidableEq, Repr

def ApiKeyEnvironment.text : ApiKeyEnvironment → Text
  | .live => ofString "live"
  | .test => ofString "test"

def apiKeyIdentifierLength : Nat := 12

def apiKeySecretLength : Nat := 32

structure ParsedApiKey where
  environment : ApiKeyEnvironment
  identifier : Text
  secret : Text
deriving DecidableEq, Repr

/-- `[A-Za-z0-9]`. -/
def isTokenUnit (u : UInt16) : Bool :=
  (65 ≤ u ∧ u ≤ 90) ∨ (97 ≤ u ∧ u ≤ 122) ∨ (48 ≤ u ∧ u ≤ 57)

/-- `/^[A-Za-z0-9]+$/`. -/
def TOKEN_ALPHABET (body : Text) : Bool := body ≠ [] ∧ body.all isTokenUnit

/-- The unit between the segments of a token. -/
def underscore : UInt16 := 95

def apiKeyPrefix (environment : ApiKeyEnvironment) : Text :=
  ofString "wnp_" ++ environment.text ++ [underscore]

def formatApiKey (environment : ApiKeyEnvironment) (identifier secret : Text) : Text :=
  apiKeyPrefix environment ++ identifier ++ secret

def apiKeyDisplayPrefix (environment : ApiKeyEnvironment) (identifier : Text) : Text :=
  apiKeyPrefix environment ++ identifier

/-- `secret.slice(-4)`. -/
def apiKeyLastFour (secret : Text) : Text := secret.drop (secret.length - 4)

def toEnvironment (candidate : Text) : Option ApiKeyEnvironment :=
  [ApiKeyEnvironment.live, .test].find? (·.text = candidate)

def tryParseApiKey (token : Text) : Option ParsedApiKey :=
  match token.splitOn underscore with
  | [namespace', environmentCandidate, body] =>
    if namespace' ≠ ofString "wnp" then none
    else
      match toEnvironment environmentCandidate with
      | none => none
      | some environment =>
        if body.length ≠ apiKeyIdentifierLength + apiKeySecretLength then none
        else if TOKEN_ALPHABET body = false then none
        else some {
          environment
          identifier := body.take apiKeyIdentifierLength
          secret := body.drop apiKeyIdentifierLength }
  | _ => none

/-! ## `api-key.ts` -/

/-- The alphabet tokens are drawn from. -/
def alphabet : Text :=
  ofString "ABCDEFGHIJKLMNOPQRSTUVWXYZabcdefghijklmnopqrstuvwxyz0123456789"

/-- The largest multiple of the alphabet size that fits in a byte. -/
def REJECTION_LIMIT : Nat := 256 / alphabet.length * alphabet.length

/-- The loop of `collectUsableCharacters`. -/
def collectFrom (wanted : Nat) (collected : Text) : Buffer → Text
  | [] => collected
  | byte :: source =>
    if collected.length = wanted then collected
    else if byte.toNat < REJECTION_LIMIT then
      collectFrom wanted (collected ++ (alphabet[byte.toNat % alphabet.length]?).toList) source
    else collectFrom wanted collected source

def collectUsableCharacters (source : Buffer) (wanted : Nat) : Text := collectFrom wanted [] source

/-- The loop of `randomAlphanumeric`: what it returns, and the chunks it leaves; `none` is a loop
that these chunks do not end. -/
def fillFrom (length : Nat) (result : Text) : List Buffer → Option (Text × List Buffer)
  | [] => if result.length < length then none else some (result, [])
  | chunk :: chunks =>
    if result.length < length then
      if chunk.length = length * 2 then
        fillFrom length (result ++ collectUsableCharacters chunk (length - result.length)) chunks
      else none
    else some (result, chunk :: chunks)

def randomAlphanumeric (length : Nat) (chunks : List Buffer) : Option (Text × List Buffer) :=
  fillFrom length [] chunks

structure GeneratedApiKey where
  token : Text
  identifier : Text
  displayPrefix : Text
  lastFour : Text
  keyHash : Buffer

variable (hashApiKeySecret : Text → Text → Buffer)

/-- The comparison in constant time, and the one of lengths it needs. -/
def isApiKeySecretValid (storedHash : Buffer) (suppliedSecret pepper : Text) : Bool :=
  if storedHash.length ≠ (hashApiKeySecret suppliedSecret pepper).length then false
  else storedHash = hashApiKeySecret suppliedSecret pepper

def generateApiKey (environment : ApiKeyEnvironment) (pepper : Text) (chunks : List Buffer) :
    Option (GeneratedApiKey × List Buffer) := do
  let (identifier, chunks) ← randomAlphanumeric apiKeyIdentifierLength chunks
  let (secret, chunks) ← randomAlphanumeric apiKeySecretLength chunks
  return ({
    token := formatApiKey environment identifier secret
    identifier
    displayPrefix := apiKeyDisplayPrefix environment identifier
    lastFour := apiKeyLastFour secret
    keyHash := hashApiKeySecret secret pepper }, chunks)

/-! ## Tokens -/

section Tokens

variable {e : ApiKeyEnvironment} {i s t : Text}

theorem not_underscore {u : UInt16} (h : isTokenUnit u = true) : u ≠ underscore := by
  rintro rfl
  exact absurd h (by decide)

theorem toEnvironment_text (e : ApiKeyEnvironment) : toEnvironment e.text = some e := by
  cases e <;> decide

theorem text_of_toEnvironment {candidate : Text} (h : toEnvironment candidate = some e) :
    e.text = candidate := by
  have hfound := List.find?_some h
  simpa using hfound

/-- A token is its three segments, with an underscore between each two. -/
theorem formatApiKey_eq (e : ApiKeyEnvironment) (i s : Text) :
    formatApiKey e i s = [underscore].intercalate [ofString "wnp", e.text, i ++ s] := by
  have hprefix : ofString "wnp_" = ofString "wnp" ++ [underscore] := by decide
  simp [formatApiKey, apiKeyPrefix, hprefix, List.intercalate_cons_cons]

theorem splitOn_formatApiKey (h : ∀ u ∈ i ++ s, isTokenUnit u = true) :
    (formatApiKey e i s).splitOn underscore = [ofString "wnp", e.text, i ++ s] := by
  rw [formatApiKey_eq]
  refine List.splitOn_intercalate _ (fun l hl => ?_) nofun
  simp only [List.mem_cons, List.not_mem_nil, or_false] at hl
  rcases hl with rfl | rfl | rfl
  · decide
  · cases e <;> decide
  · exact fun hmem => not_underscore (h _ hmem) rfl

/-- **What was formatted parses back.** -/
theorem tryParse_format (hi : i.length = apiKeyIdentifierLength)
    (hs : s.length = apiKeySecretLength) (h : ∀ u ∈ i ++ s, isTokenUnit u = true) :
    tryParseApiKey (formatApiKey e i s) = some ⟨e, i, s⟩ := by
  have hlength : (i ++ s).length = apiKeyIdentifierLength + apiKeySecretLength := by
    rw [List.length_append, hi, hs]
  have halphabet : TOKEN_ALPHABET (i ++ s) = true := by
    refine decide_eq_true ⟨?_, List.all_eq_true.2 h⟩
    intro hnil
    rw [hnil] at hlength
    cases hlength
  have htake : (i ++ s).take apiKeyIdentifierLength = i := by rw [← hi, List.take_left]
  have hdrop : (i ++ s).drop apiKeyIdentifierLength = s := by rw [← hi, List.drop_left]
  simp only [tryParseApiKey, splitOn_formatApiKey h, toEnvironment_text, hlength, halphabet, htake,
    hdrop, ne_eq, not_true_eq_false, if_false, Bool.true_eq_false]

/-- **What parses was formatted.** -/
theorem format_of_tryParse (h : tryParseApiKey t = some ⟨e, i, s⟩) : formatApiKey e i s = t := by
  unfold tryParseApiKey at h
  split at h
  · rename_i namespace' candidate body hsplit
    split at h
    · cases h
    · rename_i hnamespace
      split at h
      · cases h
      · rename_i environment henvironment
        split at h
        · cases h
        · split at h
          · cases h
          · cases h
            rw [formatApiKey_eq, List.take_append_drop, text_of_toEnvironment henvironment,
              ← not_not.1 hnamespace, ← hsplit, List.intercalate_splitOn]
  · cases h

end Tokens

/-! ## Draws -/

section Draws

variable {wanted length : Nat} {collected result : Text}

theorem alphabet_units : ∀ u ∈ alphabet, isTokenUnit u = true := List.all_eq_true.1 (by decide)

/-- Collecting appends units of the alphabet, and no more than are wanted. -/
theorem collectFrom_spec (source : Buffer) (hle : collected.length ≤ wanted)
    (h : ∀ u ∈ collected, isTokenUnit u = true) :
    (collectFrom wanted collected source).length ≤ wanted ∧
      ∀ u ∈ collectFrom wanted collected source, isTokenUnit u = true := by
  induction source generalizing collected with
  | nil => exact ⟨hle, h⟩
  | cons byte source ih =>
    unfold collectFrom
    split
    · exact ⟨hle, h⟩
    · rename_i hne
      split
      · have hbound : byte.toNat % alphabet.length < alphabet.length := Nat.mod_lt _ (by decide)
        rw [List.getElem?_eq_getElem hbound]
        refine ih ?_ fun u hu => ?_
        · simp only [Option.toList_some, List.length_append, List.length_singleton]
          omega
        · rcases List.mem_append.1 hu with hu | hu
          · exact h u hu
          · rw [List.mem_singleton.1 hu]
            exact alphabet_units _ (List.getElem_mem hbound)
      · exact ih hle h

theorem fillFrom_spec {chunks rest : List Buffer} {text : Text} (hle : result.length ≤ length)
    (h : ∀ u ∈ result, isTokenUnit u = true)
    (hfill : fillFrom length result chunks = some (text, rest)) :
    text.length = length ∧ ∀ u ∈ text, isTokenUnit u = true := by
  induction chunks generalizing result with
  | nil =>
    unfold fillFrom at hfill
    split at hfill
    · cases hfill
    · cases hfill
      exact ⟨by omega, h⟩
  | cons chunk chunks ih =>
    unfold fillFrom at hfill
    split at hfill
    · split at hfill
      · have hempty : ([] : Text).length ≤ length - result.length := Nat.zero_le _
        obtain ⟨hcollected, hunits⟩ := collectFrom_spec chunk hempty nofun
        refine ih ?_ ?_ hfill
        · rw [List.length_append]
          exact Nat.add_le_of_le_sub' hle hcollected
        · intro u hu
          rcases List.mem_append.1 hu with hu | hu
          · exact h u hu
          · exact hunits u hu
      · cases hfill
    · cases hfill
      exact ⟨by omega, h⟩

/-- However the bytes come, what is drawn has the length asked for and is of the alphabet. -/
theorem randomAlphanumeric_spec {chunks rest : List Buffer} {text : Text}
    (h : randomAlphanumeric length chunks = some (text, rest)) :
    text.length = length ∧ ∀ u ∈ text, isTokenUnit u = true :=
  fillFrom_spec (Nat.zero_le _) (fun _ hu => absurd hu List.not_mem_nil) h

/-- What a generated key is made of. -/
theorem generateApiKey_spec {hash : Text → Text → Buffer} {e : ApiKeyEnvironment} {pepper : Text}
    {chunks rest : List Buffer} {key : GeneratedApiKey}
    (h : generateApiKey hash e pepper chunks = some (key, rest)) :
    ∃ secret, key.token = formatApiKey e key.identifier secret ∧ key.keyHash = hash secret pepper ∧
      key.identifier.length = apiKeyIdentifierLength ∧ secret.length = apiKeySecretLength ∧
      ∀ u ∈ key.identifier ++ secret, isTokenUnit u = true := by
  obtain ⟨⟨identifier, chunks₁⟩, h₁, h⟩ := Option.bind_eq_some_iff.1 h
  obtain ⟨⟨secret, chunks₂⟩, h₂, h⟩ := Option.bind_eq_some_iff.1 h
  cases h
  obtain ⟨hidentifier, hunits⟩ := randomAlphanumeric_spec h₁
  obtain ⟨hsecret, hunits'⟩ := randomAlphanumeric_spec h₂
  refine ⟨secret, rfl, rfl, hidentifier, hsecret, fun u hu => ?_⟩
  rcases List.mem_append.1 hu with hu | hu
  · exact hunits u hu
  · exact hunits' u hu

end Draws

/-- **API key round trip.** What was formatted parses back, what parses was formatted, and a
generated token parses back to its own identifier and to a secret whose hash is the stored one. -/
theorem api_key_round_trip :
    (∀ (e : ApiKeyEnvironment) (i s : Text), i.length = 12 → s.length = 32 →
      (∀ u ∈ i ++ s, isTokenUnit u = true) →
      tryParseApiKey (formatApiKey e i s) = some ⟨e, i, s⟩) ∧
    (∀ (t : Text) (e : ApiKeyEnvironment) (i s : Text), tryParseApiKey t = some ⟨e, i, s⟩ →
      formatApiKey e i s = t) ∧
    (∀ (hash : Text → Text → Buffer) (e : ApiKeyEnvironment) (pepper : Text)
      (chunks rest : List Buffer) (key : GeneratedApiKey),
      generateApiKey hash e pepper chunks = some (key, rest) →
      ∃ secret, tryParseApiKey key.token = some ⟨e, key.identifier, secret⟩ ∧
        key.identifier.length = 12 ∧ secret.length = 32 ∧ hash secret pepper = key.keyHash ∧
        isApiKeySecretValid hash key.keyHash secret pepper = true) := by
  refine ⟨fun e i s hi hs h => tryParse_format hi hs h, fun t e i s h => format_of_tryParse h, ?_⟩
  intro hash e pepper chunks rest key h
  obtain ⟨secret, htoken, hhash, hi, hs, hunits⟩ := generateApiKey_spec h
  refine ⟨secret, ?_, hi, hs, hhash.symm, ?_⟩
  · rw [htoken]
    exact tryParse_format hi hs hunits
  · simp [isApiKeySecretValid, hhash]

namespace Zeros

def identifier : Text := List.replicate 12 65

def secret : Text := List.replicate 32 65

/-- Bytes that are all zero, after a chunk whose bytes are all rejected. -/
def chunks : List Buffer := [List.replicate 24 255, List.replicate 24 0, List.replicate 64 0]

end Zeros

/-- A key drawn from zeros. -/
theorem api_key_round_trip_zeros :
    tryParseApiKey (formatApiKey .live Zeros.identifier Zeros.secret) =
        some ⟨.live, Zeros.identifier, Zeros.secret⟩ ∧
      formatApiKey .live Zeros.identifier Zeros.secret =
        ofString "wnp_live_AAAAAAAAAAAAAAAAAAAAAAAAAAAAAAAAAAAAAAAAAAAA" ∧
      ∃ key rest, generateApiKey (fun s _ => [s.length.toUInt8]) .test [] Zeros.chunks =
          some (key, rest) ∧
        ∃ s, tryParseApiKey key.token = some ⟨.test, key.identifier, s⟩ ∧ s.length = 32 := by
  obtain ⟨hformat, hparse, hgenerate⟩ := api_key_round_trip
  have hunits : ∀ u ∈ Zeros.identifier ++ Zeros.secret, isTokenUnit u = true :=
    List.all_eq_true.1 (by decide)
  refine ⟨hformat _ _ _ (by decide) (by decide) hunits, hparse _ _ _ _ (by decide +kernel), ?_⟩
  have hkey : (generateApiKey (fun s _ => [s.length.toUInt8]) .test [] Zeros.chunks).isSome =
      true := by decide +kernel
  obtain ⟨⟨key, rest⟩, hsome⟩ := Option.isSome_iff_exists.1 hkey
  obtain ⟨s, hs, -, hlength, -⟩ := hgenerate _ _ _ _ _ _ hsome
  exact ⟨key, rest, hsome, s, hs, hlength⟩

end ApiKey

end NotificationPlatform
