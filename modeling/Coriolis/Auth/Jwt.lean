import Coriolis.Auth.Token
import Coriolis.Library.Base64
import Coriolis.Library.Json

/-!
# Tokens to the byte

`create_token` and `verify_token` for any payload, with their own Base64 functions, which leave
the padding out. HMAC and JSON come from libraries. A signature is compared after it is decoded,
so a signature has several encodings, but what is signed is the text of the first two parts, and
it fixes the payload.
-/

namespace Coriolis.Auth

abbrev Payload := List (String × Json)

/-- HMAC-SHA256 of a text with a key, and JSON text as bytes. Loading may raise. -/
structure Primitives where
  hmac : Text → Text → List UInt8
  dumps : Payload → List UInt8
  loads : List UInt8 → Except String Json

/-- `_base64url_encode`. -/
def base64urlEncode (data : List UInt8) : Text := Base64.unpad (Base64.encode data)

/-- `_base64url_decode`. -/
def base64urlDecode (data : Text) : Except String (List UInt8) := Base64.decode (Base64.pad data)

/-- `dict.setdefault`. -/
def setdefault (payload : Payload) (key : String) (value : Json) : Payload :=
  if key ∈ payload.map (·.1) then payload else payload ++ [(key, value)]

/-- A call of `create_token`, at a time in seconds. -/
structure Call where
  payload : Payload
  expirationHours : Int
  now : Int

/-- The payload with the time of the call and the end of its validity. The hours are an integer
option. -/
def Call.tokenPayload (call : Call) : Payload :=
  let payload := setdefault call.payload "iat" (.int call.now)
  if call.expirationHours = 0 then payload
  else setdefault payload "exp" (.int (call.now + call.expirationHours * 3600))

namespace Primitives

variable (lib : Primitives)

def jwtHeader : Payload := [("alg", .str "HS256"), ("typ", .str "JWT")]

def signingInput (call : Call) : Text :=
  base64urlEncode (lib.dumps jwtHeader) ++ '.' :: base64urlEncode (lib.dumps call.tokenPayload)

/-- `create_token`. -/
def createToken (call : Call) (secretKey : Text) : Text :=
  lib.signingInput call ++ '.' :: base64urlEncode (lib.hmac secretKey (lib.signingInput call))

/-- Whether a time is after the value of `exp`. Python compares numbers only. -/
def isAfter (now : Int) : Json → Except String Bool
  | .null => .ok false
  | value =>
    match value.number? with
    | some exp => .ok (exp < now)
    | none => .error "TypeError"

/-- The end of `verify_token`: the check of `exp`. -/
def checkExpiration (now : Int) : Json → Except String Json
  | .obj payload => do
    if ← isAfter now ((Json.field? "exp" payload).getD .null) then .error "Token has expired"
    else .ok (.obj payload)
  | _ => .error "AttributeError"

/-- `verify_token`. -/
def verifyToken (token secretKey : Text) (now : Int) : Except String Json :=
  if token.isEmpty then .error "Invalid token format"
  else
    match token.splitOn '.' with
    | [header, payload, signature] =>
      match base64urlDecode signature with
      | .error e => .error ("Invalid signature encoding: " ++ e)
      | .ok actual =>
        if lib.hmac secretKey (header ++ '.' :: payload) ≠ actual then
          .error "Token signature mismatch"
        else
          match base64urlDecode payload >>= lib.loads with
          | .error e => .error ("Invalid payload JSON: " ++ e)
          | .ok payload => checkExpiration now payload
    | _ => .error "Token must have exactly 3 parts"

def Valid (now : Int) (payload : Payload) : Prop :=
  isAfter now ((Json.field? "exp" payload).getD .null) = .ok false

/-- Nobody but the calls has signed anything with the key that the token is a signature of. -/
def Unforged (secretKey : Text) (calls : List Call) (token : Text) : Prop :=
  ∀ header payload signature, token.splitOn '.' = [header, payload, signature] →
    base64urlDecode signature = .ok (lib.hmac secretKey (header ++ '.' :: payload)) →
    ∃ call ∈ calls, header ++ '.' :: payload = lib.signingInput call

variable {lib} {secretKey token : Text} {now : Int} {calls : List Call} {call : Call}
  {payload : Json}

lemma decode_encode : base64urlDecode (base64urlEncode data) = .ok data :=
  Base64.decode_encode data

lemma dot_not_mem_encode : '.' ∉ base64urlEncode data := Base64.dot_not_mem_unpad

lemma checkExpiration_eq_ok : checkExpiration now payload = .ok payload' ↔
    ∃ fields, payload = .obj fields ∧ payload' = .obj fields ∧ Valid now fields := by
  cases payload with
  | obj fields =>
    simp only [checkExpiration, Valid, Json.obj.injEq, exists_eq_left']
    cases isAfter now ((Json.field? "exp" fields).getD .null) with
    | error e => simp [bind, Except.bind]
    | ok after => cases after <;> simp [bind, Except.bind, eq_comm]
  | _ => simp [checkExpiration]

lemma verifyToken_eq_ok_iff : lib.verifyToken token secretKey now = .ok payload ↔
    ∃ header body signature, token.splitOn '.' = [header, body, signature] ∧
      base64urlDecode signature = .ok (lib.hmac secretKey (header ++ '.' :: body)) ∧
      ∃ fields, (base64urlDecode body >>= lib.loads) = .ok (.obj fields) ∧ payload = .obj fields ∧
        Valid now fields := by
  rw [verifyToken]
  rcases token with - | ⟨c, token⟩
  · simp
  simp only [List.isEmpty_cons, Bool.false_eq_true, if_false]
  split
  · rename_i header body signature hsplit
    simp only [hsplit, List.cons.injEq, and_true]
    constructor
    · intro h
      refine ⟨header, body, signature, ⟨rfl, rfl, rfl⟩, ?_⟩
      split at h
      · simp at h
      rename_i actual hactual
      split at h
      · simp at h
      rename_i hmac
      split at h
      · simp at h
      rename_i loaded hloaded
      obtain ⟨fields, rfl, hpayload⟩ := checkExpiration_eq_ok.mp h
      exact ⟨by rw [hactual, not_not.mp hmac], fields, hloaded, hpayload⟩
    · rintro ⟨_, _, _, ⟨rfl, rfl, rfl⟩, hsignature, fields, hloaded, rfl, hvalid⟩
      simp only [hsignature, hloaded, ne_eq, not_true, if_false]
      exact checkExpiration_eq_ok.mpr ⟨fields, rfl, rfl, hvalid⟩
  · rename_i hsplit
    simp only [reduceCtorEq, false_iff]
    rintro ⟨header, body, signature, h, -⟩
    exact hsplit header body signature h

lemma signingInput_injective (hh : '.' ∉ header) (hb : '.' ∉ body)
    (h : header ++ '.' :: body = lib.signingInput call) :
    body = base64urlEncode (lib.dumps call.tokenPayload) := by
  have hsplit := congrArg (List.splitOn '.') h
  rw [Codec.splitOn_two hh hb, signingInput, Codec.splitOn_two dot_not_mem_encode dot_not_mem_encode]
    at hsplit
  simp_all

lemma splitOn_createToken : (lib.createToken call secretKey).splitOn '.' =
    [base64urlEncode (lib.dumps jwtHeader), base64urlEncode (lib.dumps call.tokenPayload),
      base64urlEncode (lib.hmac secretKey (lib.signingInput call))] := by
  rw [createToken, signingInput, List.append_assoc, List.cons_append,
    List.splitOn_append_cons_self_of_not_mem dot_not_mem_encode,
    Codec.splitOn_two dot_not_mem_encode dot_not_mem_encode]

/-- An accepted token carries the payload of a call, which is still valid, and each token of a
call is accepted with its payload as long as it is. -/
theorem verifyToken_iff_created (calls : List Call) (hjson : ∀ call ∈ calls,
      lib.loads (lib.dumps call.tokenPayload) = .ok (.obj call.tokenPayload)) :
    (∀ token now payload, lib.Unforged secretKey calls token →
      lib.verifyToken token secretKey now = .ok payload →
      ∃ call ∈ calls, payload = .obj call.tokenPayload ∧ Valid now call.tokenPayload) ∧
    ∀ call ∈ calls, ∀ now, Valid now call.tokenPayload →
      lib.verifyToken (lib.createToken call secretKey) secretKey now =
        .ok (.obj call.tokenPayload) := by
  refine ⟨fun token now payload hunforged h => ?_, fun call hcall now hvalid => ?_⟩
  · obtain ⟨header, body, signature, hsplit, hsignature, fields, hloaded, rfl, hvalid⟩ :=
      verifyToken_eq_ok_iff.mp h
    obtain ⟨call, hcall, hinput⟩ := hunforged header body signature hsplit hsignature
    have hdots := Codec.not_mem_of_splitOn hsplit
    obtain rfl := signingInput_injective (hdots header (by simp)) (hdots body (by simp)) hinput
    rw [decode_encode] at hloaded
    obtain rfl := Json.obj.inj (Except.ok.inj ((hjson call hcall).symm.trans hloaded))
    exact ⟨call, hcall, rfl, hvalid⟩
  · refine verifyToken_eq_ok_iff.mpr ⟨_, _, _, splitOn_createToken, ?_, call.tokenPayload, ?_, rfl,
      hvalid⟩
    · rw [decode_encode, signingInput]
    · rw [decode_encode]
      exact hjson call hcall

def ascii (text : Text) : List UInt8 := text.map fun c => UInt8.ofNat c.toNat

def dumpsLeaf : Json → String
  | .str s => "\"" ++ s ++ "\""
  | .int n => toString n
  | _ => "null"

/-- JSON for payloads of plain texts and numbers, of which one is read back. -/
def flatLibrary (payload : Payload) : Primitives where
  hmac key message := ascii (key ++ message)
  dumps := dumpsFlat
  loads text := if text = dumpsFlat payload then .ok (.obj payload) else .error "Expecting value"
where
  dumpsFlat (payload : Payload) : List UInt8 :=
    ascii ("\x7b" ++ ",".intercalate (payload.map fun e => dumpsLeaf (.str e.1) ++ ":" ++
      dumpsLeaf e.2) ++ "\x7d").toList

/-- The token of a user is accepted to its last second, and only the call can have made it. -/
theorem verifyToken_alice :
    let call : Call := ⟨[("sub", .str "alice")], 8, 1000⟩
    let lib := flatLibrary call.tokenPayload
    let token := lib.createToken call "key".toList
    lib.dumps call.tokenPayload =
        ascii "\x7b\"sub\":\"alice\",\"iat\":1000,\"exp\":29800\x7d".toList ∧
      lib.Unforged "key".toList [call] token ∧
      lib.verifyToken token "key".toList 29800 = .ok (.obj call.tokenPayload) ∧
      ∀ now payload, lib.verifyToken token "key".toList now = .ok payload →
        payload = .obj call.tokenPayload ∧ Valid now call.tokenPayload := by
  intro call lib token
  have hunforged : lib.Unforged "key".toList [call] token := by
    intro header body signature hsplit _
    rw [splitOn_createToken] at hsplit
    obtain ⟨rfl, rfl, -⟩ : _ = header ∧ _ = body ∧ _ := by simpa using hsplit
    exact ⟨call, List.mem_singleton.mpr rfl, rfl⟩
  have hcreated := @verifyToken_iff_created lib "key".toList [call]
    fun call' hcall => by
      obtain rfl := List.mem_singleton.mp hcall
      exact if_pos rfl
  refine ⟨by decide, hunforged, hcreated.2 call (List.mem_singleton.mpr rfl) 29800
    (congrArg Except.ok (by decide +kernel)), fun now payload h => ?_⟩
  simpa using hcreated.1 token now payload hunforged h

end Primitives

end Coriolis.Auth
