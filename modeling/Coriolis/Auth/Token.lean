import Mathlib.Data.List.Basic

/-!
# Tokens

A token has three parts, separated by dots: a header, the claims, and a signature of both with
the secret of the server. JSON, Base64 and HMAC come from libraries and are parameters here. A
token that is accepted carries claims that decode from what was signed, and so, if nobody but
the server signs, the claims of a token that the server created.
-/

namespace Coriolis.Auth

abbrev Text := List Char

/-- The claims that the server puts into a token, or finds in one. -/
structure Claims where
  sub : Option String
  name : Option String
  roles : Option (List String)
  authSource : Option String
  projectId : Option String
  iat : Option Nat
  exp : Option Nat
  deriving DecidableEq

/-- What the libraries do: HMAC-SHA256, and the parts of tokens in JSON and Base64. Decoding
may raise. -/
structure Codec where
  hmac : Text → Text → Text
  header : Text
  encodeClaims : Claims → Text
  decodeClaims : Text → Except String Claims
  encodeSignature : Text → Text
  decodeSignature : Text → Except String Text

/-- Base64 has no dots, and decoding is the inverse of encoding. -/
structure Codec.Lawful (codec : Codec) : Prop where
  header_dot : '.' ∉ codec.header
  claims_dot : ∀ claims, '.' ∉ codec.encodeClaims claims
  signature_dot : ∀ signature, '.' ∉ codec.encodeSignature signature
  decode_claims : ∀ claims, codec.decodeClaims (codec.encodeClaims claims) = .ok claims
  decode_signature : ∀ signature,
    codec.decodeSignature (codec.encodeSignature signature) = .ok signature

namespace Codec

variable (codec : Codec)

def signingInput (claims : Claims) : Text := codec.header ++ '.' :: codec.encodeClaims claims

/-- `create_token`. -/
def createToken (secret : Text) (claims : Claims) : Text :=
  codec.signingInput claims ++
    '.' :: codec.encodeSignature (codec.hmac secret (codec.signingInput claims))

/-- `verify_token`. -/
def verifyToken (secret : Text) (now : Nat) (token : Text) : Except String Claims :=
  if token.isEmpty then .error "Invalid token format"
  else
    match token.splitOn '.' with
    | [header, payload, signature] =>
      match codec.decodeSignature signature with
      | .error e => .error ("Invalid signature encoding: " ++ e)
      | .ok actual =>
        if codec.hmac secret (header ++ '.' :: payload) ≠ actual then
          .error "Token signature mismatch"
        else
          match codec.decodeClaims payload with
          | .error e => .error ("Invalid payload JSON: " ++ e)
          | .ok claims =>
            match claims.exp with
            | some exp => if now > exp then .error "Token has expired" else .ok claims
            | none => .ok claims
    | _ => .error "Token must have exactly 3 parts"

variable {codec} {secret token : Text} {now : Nat} {claims : Claims}

def Signs (codec : Codec) (secret token input : Text) : Prop :=
  ∃ header payload signature, token.splitOn '.' = [header, payload, signature] ∧
    input = header ++ '.' :: payload ∧
    codec.decodeSignature signature = .ok (codec.hmac secret input)

lemma not_mem_of_splitOn {s : Text} (h : s.splitOn c = parts) :
    ∀ part ∈ parts, c ∉ part := by
  induction s generalizing parts with
  | nil => simp [← h]
  | cons a s ih =>
    rw [List.splitOn_cons_eq_if_modifyHead] at h
    split at h
    · rw [← h]
      simpa using ih rfl
    · rename_i ha
      rcases hs : s.splitOn c with - | ⟨first, rest⟩
      · exact absurd hs (List.splitOn_ne_nil _ _)
      · rw [hs] at h
        have hrest := ih hs
        rw [← h]
        rw [List.modifyHead_cons, List.forall_mem_cons]
        refine ⟨fun hc => ?_, fun part hpart => hrest part (List.mem_cons_of_mem _ hpart)⟩
        rcases List.mem_cons.mp hc with rfl | hc
        · exact ha (beq_self_eq_true _)
        · exact hrest first List.mem_cons_self hc

lemma verifyToken_eq_ok (h : codec.verifyToken secret now token = .ok claims) :
    ∃ header payload, '.' ∉ header ∧ '.' ∉ payload ∧
      codec.Signs secret token (header ++ '.' :: payload) ∧
      codec.decodeClaims payload = .ok claims := by
  rw [verifyToken] at h
  split at h
  · simp at h
  split at h
  · rename_i header payload signature hsplit
    have hdots := not_mem_of_splitOn hsplit
    simp only [List.mem_cons, List.not_mem_nil, or_false, forall_eq_or_imp, forall_eq] at hdots
    split at h
    · simp at h
    rename_i actual hactual
    split at h
    · simp at h
    rename_i hmac
    split at h
    · simp at h
    rename_i claims' hclaims
    have heq : claims' = claims := by
      split at h
      · split at h
        · simp at h
        · exact Except.ok.inj h
      · exact Except.ok.inj h
    refine ⟨header, payload, hdots.1, hdots.2.1, ⟨header, payload, signature, hsplit, rfl, ?_⟩,
      heq ▸ hclaims⟩
    rw [hactual, not_not.mp hmac]
  · simp at h

lemma splitOn_two (ha : '.' ∉ a) (hb : '.' ∉ b) :
    (a ++ '.' :: b).splitOn '.' = [a, b] := by
  rw [List.splitOn_append_cons_self_of_not_mem ha, List.splitOn_eq_singleton hb]

lemma Lawful.decode_signed (hl : codec.Lawful) {header payload : Text} (hh : '.' ∉ header)
    (hp : '.' ∉ payload) (h : header ++ '.' :: payload = codec.signingInput claims) :
    codec.decodeClaims payload = .ok claims := by
  have hsplit := congrArg (List.splitOn '.') h
  rw [splitOn_two hh hp, signingInput, splitOn_two hl.header_dot (hl.claims_dot claims)] at hsplit
  have heq : header = codec.header ∧ payload = codec.encodeClaims claims := by
    simpa using hsplit
  rw [heq.2, hl.decode_claims]

lemma Lawful.splitOn_createToken (hl : codec.Lawful) :
    (codec.createToken secret claims).splitOn '.' = [codec.header, codec.encodeClaims claims,
      codec.encodeSignature (codec.hmac secret (codec.signingInput claims))] := by
  rw [createToken, signingInput, List.append_assoc, List.cons_append,
    List.splitOn_append_cons_self_of_not_mem hl.header_dot,
    splitOn_two (hl.claims_dot claims) (hl.signature_dot _)]

lemma Lawful.signs_createToken (hl : codec.Lawful)
    (h : codec.Signs secret (codec.createToken secret claims) input) :
    input = codec.signingInput claims := by
  obtain ⟨header, payload, signature, hsplit, rfl, -⟩ := h
  rw [hl.splitOn_createToken] at hsplit
  simp only [List.cons.injEq, and_true] at hsplit
  rw [← hsplit.1, ← hsplit.2.1, signingInput]

lemma Lawful.verify_createToken (hl : codec.Lawful) (hexp : ∀ exp ∈ claims.exp, now ≤ exp) :
    codec.verifyToken secret now (codec.createToken secret claims) = .ok claims := by
  have hne : (codec.createToken secret claims).isEmpty = false := by
    simp [createToken, signingInput]
  rw [verifyToken, hne, hl.splitOn_createToken]
  simp only [hl.decode_signature, hl.decode_claims, signingInput]
  cases hc : claims.exp with
  | none => simp
  | some exp =>
    have := hexp exp hc
    simp [this]

end Codec

end Coriolis.Auth
