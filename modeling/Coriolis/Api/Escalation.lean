import Coriolis.Api.Configs
import Mathlib.Logic.Equiv.List
import Mathlib.Tactic.DeriveEncodable

/-!
# Attackers

Attackers are users of the API. They send any requests, with the tokens they have read and the
passwords they know, and they wait. They cannot sign without the secret, and they cannot guess
the passwords of others. Reading the configuration or the users file ends both.

Every user with a token can read and write these files, and so become any other user. Attackers
who leave the two files alone get no further than their roles, however often they log in and
whatever else they send.
-/

namespace Coriolis.Api

open Routing
open Coriolis.Auth (AuthManager Claims)

/-- The server, and what the attackers have read: tokens, and perhaps a file with secrets. -/
structure State where
  server : Server
  seen : List Text
  leaked : Bool

def sensitive (mgr : AuthManager) (path : String) : Bool :=
  path = configPath "coriolis.conf" || path = mgr.localUsersFile

namespace State

def users (mgr : AuthManager) (s : State) : Option Text := s.server.files mgr.localUsersFile

def request (router : Mapper Controller) (mgr : AuthManager) (req : Request) (s : State) : State :=
  let (server, reply) := serve router mgr s.server req
  match reply with
  | .token token => ⟨server, token :: s.seen, s.leaked⟩
  | .config id _ =>
    ⟨server, s.seen, s.leaked || (configName id).any fun name => sensitive mgr (configPath name)⟩
  | _ => ⟨server, s.seen, s.leaked⟩

def wait (seconds : Nat) (s : State) : State :=
  { s with server := { s.server with now := s.server.now + seconds } }

end State

variable {router : Mapper Controller} {mgr : AuthManager} {attackers : Set String} {s s' s₀ : State} {req : Request}

/-- What the attackers can send. Before they have read a secret, a token with a right signature
has the signature of one they have seen, and a password that is accepted is their own. -/
structure Can (mgr : AuthManager) (attackers : Set String) (s : State) (req : Request) :
    Prop where
  unforged : s.leaked = false → ∀ token input, req.token = some token →
    mgr.codec.Signs mgr.jwtSecret token input →
      ∃ t ∈ s.seen, mgr.codec.Signs mgr.jwtSecret t input
  unguessed : s.leaked = false → ∀ user password, req.credentials = some (user, password) →
    mgr.authenticate (s.users mgr) user password ≠ none → user ∈ attackers

/-- The request shows or updates the configuration file or the users file. -/
def Request.Touches (router : Mapper Controller) (mgr : AuthManager) (req : Request) : Prop :=
  ∃ name, req.configFile router = some name ∧ sensitive mgr (configPath name) = true

/-- What attackers do. If they are to be careful, they leave the two files alone. -/
inductive Step (router : Mapper Controller) (mgr : AuthManager) (attackers : Set String)
    (careful : Prop) : State → State → Prop
  | wait {s : State} (seconds : Nat) : Step router mgr attackers careful s (s.wait seconds)
  | request {s : State} (req : Request) (hcan : Can mgr attackers s req)
      (hcareful : careful → ¬req.Touches router mgr) :
      Step router mgr attackers careful s (s.request router mgr req)

/-- The claims are those of an attacker, with roles that the users file or the directory gives. -/
def Owned (mgr : AuthManager) (attackers : Set String) (file : Option Text) (claims : Claims) :
    Prop :=
  ∃ user ∈ attackers, ∃ roles, claims.sub = some user ∧ claims.roles = some roles ∧
    ∀ role ∈ roles, mgr.Gives file user role

/-- The tokens in the hands of the attackers are their own, and they know no secret. -/
structure Contained (mgr : AuthManager) (attackers : Set String) (file : Option Text)
    (s : State) : Prop where
  leaked : s.leaked = false
  seen : ∀ token ∈ s.seen, ∃ claims, token = mgr.codec.createToken mgr.jwtSecret claims ∧
    Owned mgr attackers file claims

/-- The two files are as they were. -/
structure Untouched (mgr : AuthManager) (s₀ s : State) : Prop where
  config : s.server.files (configPath "coriolis.conf") =
    s₀.server.files (configPath "coriolis.conf")
  users : s.users mgr = s₀.users mgr

/-- A token that is accepted is one of those the attackers have seen. -/
lemma Contained.owned (h : Contained mgr attackers (s₀.users mgr) s) (hl : mgr.codec.Lawful)
    (hcan : Can mgr attackers s req) (ht : req.token = some token)
    (hv : mgr.codec.verifyToken mgr.jwtSecret now token = .ok claims) :
    Owned mgr attackers (s₀.users mgr) claims := by
  obtain ⟨header, payload, hh, hp, hsigns, hdecode⟩ := Auth.Codec.verifyToken_eq_ok hv
  obtain ⟨t, htseen, hsigns'⟩ := hcan.unforged h.leaked token _ ht hsigns
  obtain ⟨claims', rfl, howned⟩ := h.seen t htseen
  have hinput := hl.signs_createToken hsigns'
  have hclaims := hl.decode_signed hh hp hinput
  rw [hdecode] at hclaims
  exact Except.ok.inj hclaims ▸ howned

/-- A careful request leaves the files alone, and gets the attackers a token for one of
themselves at most. -/
lemma Untouched.request (hu : Untouched mgr s₀ s) (hno : ¬req.Touches router mgr) :
    Untouched mgr s₀ (s.request router mgr req) := by
  have hfiles : ∀ path, sensitive mgr path = true →
      (s.request router mgr req).server.files path = s.server.files path := by
    intro path hpath
    have hserver : (s.request router mgr req).server = (serve router mgr s.server req).1 := by
      simp only [State.request]
      split <;> rfl
    rw [hserver]
    rcases (serve_cases router mgr s.server req).1 with h | ⟨name, content, hname, h⟩
    · rw [h]
    · rw [h]
      refine Function.update_of_ne (fun heq => hno ⟨name, hname, ?_⟩) _ _
      rwa [← heq]
  exact ⟨(hfiles _ (by simp [sensitive])).trans hu.config,
    (hfiles _ (by simp [sensitive])).trans hu.users⟩

lemma Contained.request (h : Contained mgr attackers (s₀.users mgr) s)
    (hu : Untouched mgr s₀ s) (hs : mgr.strategy ≠ "none") (hcan : Can mgr attackers s req)
    (hno : ¬req.Touches router mgr) :
    Contained mgr attackers (s₀.users mgr) (s.request router mgr req) := by
  obtain ⟨-, hconfig, htoken⟩ := serve_cases router mgr s.server req
  simp only [State.request]
  split
  · rename_i token hreply
    refine ⟨h.leaked, fun t ht => ?_⟩
    rcases List.mem_cons.mp ht with rfl | ht
    · obtain ⟨user, password, info, projectId, hcred, hinfo, rfl⟩ := htoken _ hreply
      have hmem := hcan.unguessed h.leaked user password hcred (by simp [State.users, hinfo])
      obtain ⟨hname, hroles⟩ := Auth.AuthManager.authenticate_gives hs hinfo
      refine ⟨_, rfl, user, hmem, info.roles, by simp [AuthManager.claims, hname], rfl, ?_⟩
      rw [← hu.users]
      exact hroles
    · exact h.seen t ht
  · rename_i id content hreply
    refine ⟨?_, h.seen⟩
    have hname : ((configName id).any fun name => sensitive mgr (configPath name)) = false := by
      by_contra hleak
      obtain ⟨name, hid, hname⟩ := (Option.any_eq_true _ _).mp (by simpa using hleak)
      exact hno ⟨name, (hconfig id content hreply).trans hid, hname⟩
    simp only [h.leaked, hname, Bool.or_false]
  · exact ⟨h.leaked, h.seen⟩

/-- Attackers who touch neither the configuration file nor the users file change neither of
them, and whatever token of theirs is accepted, it is one for an attacker with the roles that
the users file or the directory gave that attacker at the start. -/
theorem roles_contained (router : Mapper Controller) (mgr : AuthManager) (hcodec : mgr.codec.Lawful)
    (hstrategy : mgr.strategy ≠ "none") (attackers : Set String) (s₀ s : State)
    (hinit : Contained mgr attackers (s₀.users mgr) s₀)
    (hrun : Relation.ReflTransGen (Step router mgr attackers True) s₀ s) :
    (s.server.files (configPath "coriolis.conf") =
        s₀.server.files (configPath "coriolis.conf") ∧
      s.server.files mgr.localUsersFile = s₀.server.files mgr.localUsersFile) ∧
    ∀ req, Can mgr attackers s req → ∀ token claims, req.token = some token →
      mgr.codec.verifyToken mgr.jwtSecret s.server.now token = .ok claims →
      ∃ user ∈ attackers, claims.sub = some user ∧
        ∀ role ∈ claims.roles.getD ["viewer"],
          mgr.Gives (s₀.server.files mgr.localUsersFile) user role := by
  have hinv : Untouched mgr s₀ s ∧ Contained mgr attackers (s₀.users mgr) s := by
    induction hrun with
    | refl => exact ⟨⟨rfl, rfl⟩, hinit⟩
    | tail _ hstep ih =>
      cases hstep with
      | wait => exact ⟨⟨ih.1.config, ih.1.users⟩, ⟨ih.2.leaked, ih.2.seen⟩⟩
      | request req hcan hcareful =>
        have hno := hcareful trivial
        exact ⟨ih.1.request hno, ih.2.request ih.1 hstrategy hcan hno⟩
  refine ⟨⟨hinv.1.config, hinv.1.users⟩, fun req hcan token claims ht hv => ?_⟩
  obtain ⟨user, huser, roles, hsub, hroles, hgives⟩ := hinv.2.owned hcodec hcan ht hv
  refine ⟨user, huser, hsub, ?_⟩
  rw [hroles, Option.getD_some]
  exact hgives

instance encodableChar : Encodable Char :=
  Encodable.ofLeftInverse Char.toNat Char.ofNat Char.ofNat_toNat

instance encodableString : Encodable String := Encodable.ofLeftInverse String.toList String.ofList
  fun _ => String.ofList_toList

deriving instance Encodable for Claims

@[irreducible]
def unary {α : Type} [Encodable α] (a : α) : Text := List.replicate (Encodable.encode a) 'a'

@[irreducible]
def ofUnary {α : Type} [Encodable α] (text : Text) : Except String α :=
  match Encodable.decode text.length with
  | some a => .ok a
  | none => .error "malformed"

lemma ofUnary_unary [Encodable α] (a : α) : ofUnary (unary a) = .ok a := by
  simp [ofUnary, unary]

lemma eq_of_mem_unary [Encodable α] {a : α} (h : c ∈ unary a) :
    c = 'a' := by
  rw [unary] at h
  exact List.eq_of_mem_replicate h

/-- A codec that writes values in unary, and signs by putting the secret first. -/
def unaryCodec : Auth.Codec where
  hmac secret input := secret ++ input
  header := ['h']
  encodeClaims := unary
  decodeClaims := ofUnary
  encodeSignature signature := 's' :: unary signature
  decodeSignature text := ofUnary text.tail

lemma lawful_unaryCodec : unaryCodec.Lawful where
  header_dot := by decide
  claims_dot _ h := absurd (eq_of_mem_unary h) (by decide)
  signature_dot _ h := absurd (eq_of_mem_unary (List.mem_of_ne_of_mem (by decide) h)) (by decide)
  decode_claims claims := ofUnary_unary claims
  decode_signature signature := ofUnary_unary signature

/-- A users file that gives one user a role. -/
def usersFile (role : String) : Text :=
  ("users:\n  eve:\n    password_hash: $plain$pw\n    roles: [" ++ role ++ "]\n").toList

/-- What YAML reads from the files for a viewer and for an administrator. -/
def loadUsersFile (text : Text) : List (String × Auth.UserEntry) :=
  match ["viewer", "admin"].find? (usersFile · = text) with
  | some role => [("eve", ⟨none, some "$plain$pw".toList, some [role], none⟩)]
  | none => []

/-- A manager with such a file, and without a directory. -/
def oneUser : AuthManager where
  strategy := "local"
  jwtSecret := "secret".toList
  expirationHours := 1
  localUsersFile := configPath "users.yaml"
  codec := unaryCodec
  pbkdf2 _ _ _ _ := false
  bcrypt _ _ := false
  loadUsers := loadUsersFile
  ldapBackend := ⟨.dict [], [], id⟩
  directory := ⟨false, fun _ => none, fun _ _ => false⟩

def start : State :=
  ⟨⟨fun path => if path = configPath "users.yaml" then some (usersFile "viewer") else none, 0⟩, [],
    false⟩

def logIn : Request := ⟨"POST", "POST", "/auth/login".toList, none, none,
  .json (some (.obj [("username", .str "eve"), ("password", .str "pw")]))⟩

def rewrite (token : Text) : Request :=
  ⟨"PUT", "PUT", "/admin/configs/users.yaml".toList, none, some token,
    .json (some (.obj [("config", .obj [("content", .str (String.ofList (usersFile "admin")))])]))⟩

def roleClaims (role : String) : Claims :=
  oneUser.claims 0 ⟨"eve", "eve", [role], "local"⟩ "admin"

def roleToken (role : String) : Text := oneUser.codec.createToken oneUser.jwtSecret (roleClaims role)

lemma strategy_ne (now : Nat) : (verifier oneUser now).strategy ≠ "none" :=
  show "local" ≠ "none" by decide

lemma verify_roleToken (role : String) :
    oneUser.codec.verifyToken oneUser.jwtSecret 0 (roleToken role) = .ok (roleClaims role) :=
  lawful_unaryCodec.verify_createToken fun exp _ => Nat.zero_le exp

lemma isSpace_unary [Encodable α] (a : α) : ∀ c ∈ unary a, Strings.isSpace c = false := by
  intro c hc
  rw [eq_of_mem_unary hc]
  decide

lemma strip_roleToken (role : String) : Strings.strip (roleToken role) = roleToken role := by
  have hspace : ∀ c ∈ roleToken role, Strings.isSpace c = false := by
    rw [roleToken, Auth.Codec.createToken, Auth.Codec.signingInput]
    simp only [List.forall_mem_append, List.forall_mem_cons]
    have hheader : oneUser.codec.header.all (Strings.isSpace · = false) = true := by decide
    exact ⟨⟨by simpa using hheader, by decide, isSpace_unary _⟩, by decide,
      List.forall_mem_cons.mpr ⟨by decide, isSpace_unary _⟩⟩
  exact Strings.strip_eq_self (fun c hc => hspace c (List.mem_of_mem_head? hc))
    fun c hc => hspace c (List.mem_of_getLast? hc)

lemma token_rewrite (role : String) : (rewrite (roleToken role)).token = some (roleToken role) := by
  have hne : (roleToken role).isEmpty = false := rfl
  simp [Request.token, rewrite, strip_roleToken, hne]

lemma router_logIn (hrouter : Documented routes router) :
    ∃ args, router "POST" "/auth/login".toList = some (.auth, "login", args) ∧
      args.lookup "project_id" = none := by
  have hmem : connect ["auth", "login"] (.one "POST") .auth "login" ∈ routes := by decide +kernel
  have hsegs : segments "/auth/login".toList = some (["auth".toList] ++ ["login".toList]) := by
    decide
  obtain ⟨args, hanswer, hargs, -⟩ := hrouter.answer hmem rfl (by decide) hsegs (by decide)
    (.cons rfl (.cons rfl .nil)) (by decide +kernel)
  exact ⟨args, hanswer, hargs "project_id" (by decide)⟩

lemma router_rewrite (hrouter : Documented routes router) :
    ∃ args, router "PUT" "/admin/configs/users.yaml".toList = some (.configs, "update", args) ∧
      args.lookup "project_id" = some "admin".toList ∧
      args.lookup "id" = some "users.yaml".toList := by
  have hmem : (⟨[.param "project_id", "configs", .var "id" true], .one "PUT", .configs,
      "update"⟩ : Route Controller) ∈ routes := by decide +kernel
  have hsegs : segments "/admin/configs/users.yaml".toList =
      some (["admin".toList, "configs".toList] ++ ["users.yaml".toList]) := by decide
  obtain ⟨args, hanswer, -, htakes⟩ := hrouter.answer hmem rfl (by decide) hsegs (by decide)
    (.cons ⟨by decide, nofun⟩ (.cons rfl (.cons ⟨by decide, fun _ => by decide⟩ .nil)))
    (by decide +kernel)
  obtain _ | ⟨hproject, _ | ⟨-, _ | ⟨hid, -⟩⟩⟩ := htakes
  exact ⟨args, hanswer, hproject.2, hid.2⟩

lemma authenticate_eve : ∀ role ∈ ["viewer", "admin"],
    oneUser.authenticate (some (usersFile role)) "eve" "pw".toList =
      some ⟨"eve", "eve", [role], "local"⟩ := by
  decide +kernel

lemma serve_logIn (hrouter : Documented routes router) (hrole : role ∈ ["viewer", "admin"])
    (h : srv.files oneUser.localUsersFile = some (usersFile role)) (hnow : srv.now = 0) :
    serve router oneUser srv logIn = (srv, .token (roleToken role)) := by
  obtain ⟨args, hanswer, hproject⟩ := router_logIn hrouter
  have hhandle : ∃ body, handle router (verifier oneUser srv.now) logIn =
      .dispatched .auth "login" args body anonymous := by
    rw [handle, if_neg (by decide), if_neg (strategy_ne _), if_pos (by decide), route,
      show router logIn.routedMethod logIn.path = _ from hanswer]
    simp [processStack, getMethod, hproject, logIn, Body.deserialize, Controller.methods]
  obtain ⟨body, hhandle⟩ := hhandle
  rw [serve, hhandle]
  simp only [login, show logIn.credentials = some ("eve", "pw".toList) by decide, h,
    authenticate_eve role hrole, hnow, hproject]
  rfl

lemma serve_rewrite (hrouter : Documented routes router) (hnow : srv.now = 0) :
    ∃ content, serve router oneUser srv (rewrite (roleToken role)) =
      (srv.write oneUser.localUsersFile (usersFile "admin"), .updated "users.yaml".toList content) := by
  obtain ⟨args, hanswer, hproject, hid⟩ := router_rewrite hrouter
  have hverify : (verifier oneUser srv.now).verifyToken (roleToken role) =
      .ok (payload (roleClaims role)) := by
    simp only [verifier, hnow, verify_roleToken]
    rfl
  have hhandle : ∃ ctx, handle router (verifier oneUser srv.now) (rewrite (roleToken role)) =
      .dispatched .configs "update" args (some (.obj [("config", .obj [("content",
        .str (String.ofList (usersFile "admin")))])])) ctx := by
    have hprotected : ¬isUnprotectedPath (rewrite (roleToken role)).path = true :=
      show ¬isUnprotectedPath "/admin/configs/users.yaml".toList = true by decide
    have hmethod : (rewrite (roleToken role)).method ≠ "OPTIONS" := show "PUT" ≠ _ by decide
    rw [handle, if_neg hmethod, if_neg (strategy_ne _), if_neg hprotected, token_rewrite]
    simp only [hverify, route]
    rw [show router (rewrite (roleToken role)).routedMethod (rewrite (roleToken role)).path = _
      from hanswer]
    refine ⟨(payload (roleClaims role)).context, ?_⟩
    have hcontext : (payload (roleClaims role)).context.projectId = "admin" := rfl
    simp [processStack, getMethod, hproject, hcontext, rewrite, Body.deserialize, Controller.methods]
  obtain ⟨ctx, hhandle⟩ := hhandle
  have hname : configName "users.yaml".toList = some "users.yaml" := by decide
  rw [serve, hhandle]
  simp only [hid, Option.getD_some, updateConfig, hname]
  exact ⟨_, by simp [oneUser]; rfl⟩

lemma can_of_seen (htoken : ∀ token, req.token = some token → token ∈ s.seen)
    (huser : ∀ user password, req.credentials = some (user, password) → user = "eve") :
    Can oneUser {"eve"} s req where
  unforged _ token _ ht hs := ⟨token, htoken token ht, hs⟩
  unguessed _ user password hc _ := huser user password hc

lemma can_logIn : Can oneUser {"eve"} s logIn :=
  can_of_seen (by simp [show logIn.token = none by decide])
    (by simp [show logIn.credentials = some ("eve", "pw".toList) by decide])

lemma can_rewrite (h : roleToken role ∈ s.seen) :
    Can oneUser {"eve"} s (rewrite (roleToken role)) :=
  can_of_seen (fun token ht => by rwa [← Option.some.inj ((token_rewrite role).symm.trans ht)])
    (fun user password hc => by
      have hnone : (rewrite (roleToken role)).credentials = none := rfl
      simp [hnone] at hc)

lemma contained_start : Contained oneUser {"eve"} (start.users oneUser) start := ⟨rfl, nofun⟩

lemma request_logIn (hrouter : Documented routes router) (hrole : role ∈ ["viewer", "admin"])
    (h : s.users oneUser = some (usersFile role)) (hnow : s.server.now = 0) :
    s.request router oneUser logIn = ⟨s.server, roleToken role :: s.seen, s.leaked⟩ := by
  rw [State.request, serve_logIn hrouter hrole h hnow]

/-- The states after the login, and after the users file is written. -/
def loggedIn : State := ⟨start.server, [roleToken "viewer"], false⟩

def rewritten : State :=
  ⟨start.server.write oneUser.localUsersFile (usersFile "admin"), [roleToken "viewer"], false⟩

lemma users_start : start.users oneUser = some (usersFile "viewer") := by
  simp only [State.users, start, oneUser, if_true]

lemma request_start (hrouter : Documented routes router) :
    start.request router oneUser logIn = loggedIn :=
  request_logIn hrouter (by simp) users_start rfl

lemma request_loggedIn (hrouter : Documented routes router) :
    loggedIn.request router oneUser (rewrite (roleToken "viewer")) = rewritten := by
  have hnow : loggedIn.server.now = 0 := rfl
  obtain ⟨content, hserve⟩ : ∃ content, serve router oneUser loggedIn.server
      (rewrite (roleToken "viewer")) = (_, .updated _ content) := serve_rewrite hrouter hnow
  rw [State.request, hserve]
  rfl

lemma users_rewritten : rewritten.users oneUser = some (usersFile "admin") := by
  simp only [State.users, rewritten, Server.write, Function.update_self]

lemma eq_viewer_of_gives (h : oneUser.Gives (start.users oneUser) "eve" role) : role = "viewer" := by
  rcases h with ⟨entry, hentry, hrole⟩ | ⟨password, name, roles, h, -⟩
  · have hgiven : ((oneUser.users (some (usersFile "viewer"))).lookup "eve").map (·.given) =
        some ["viewer"] := by decide +kernel
    rw [users_start] at hentry
    rw [hentry, Option.map_some, Option.some.injEq] at hgiven
    simpa [hgiven] using hrole
  · cases h

/-- The user logs in, writes the users file with the token of a viewer, and logs in again. The
token of the second login is accepted, and makes the user an administrator. -/
theorem role_escalated :
    (∃ router, Documented routes router) ∧ oneUser.codec.Lawful ∧ oneUser.strategy ≠ "none" ∧
    Contained oneUser {"eve"} (start.users oneUser) start ∧
    ¬oneUser.Gives (start.users oneUser) "eve" "admin" ∧
    ∀ router, Documented routes router →
      ∃ s s', Relation.ReflTransGen (Step router oneUser {"eve"} False) start s ∧
        (∀ token ∈ s.seen, oneUser.codec.verifyToken oneUser.jwtSecret s.server.now token =
          .ok (roleClaims "viewer")) ∧
        Step router oneUser {"eve"} False s s' ∧ s'.users oneUser ≠ start.users oneUser ∧
        ∃ req token claims, Can oneUser {"eve"} s' req ∧ req.token = some token ∧
          oneUser.codec.verifyToken oneUser.jwtSecret s'.server.now token = .ok claims ∧
          claims.sub = some "eve" ∧ "admin" ∈ claims.roles.getD ["viewer"] := by
  refine ⟨exists_documented_routes, lawful_unaryCodec, strategy_ne 0, contained_start, ?_,
    fun router hrouter => ?_⟩
  · exact fun h => absurd (eq_viewer_of_gives h) (by decide)
  have hlast := request_logIn hrouter (by simp) users_rewritten rfl
  refine ⟨rewritten, rewritten.request router oneUser logIn, ?_, ?_, .request _ can_logIn nofun, ?_,
    rewrite (roleToken "admin"), roleToken "admin", roleClaims "admin", ?_, token_rewrite _, ?_, rfl,
    by decide⟩
  · refine .tail (.tail .refl (.request _ can_logIn nofun)) ?_
    rw [request_start hrouter, ← request_loggedIn hrouter]
    exact .request _ (can_rewrite List.mem_cons_self) nofun
  · intro token htoken
    obtain rfl := List.mem_singleton.mp htoken
    exact verify_roleToken _
  · have hchanged := users_rewritten
    rw [State.users] at hchanged
    rw [hlast, users_start, State.users, hchanged]
    decide +kernel
  · exact can_rewrite (by rw [hlast]; exact List.mem_cons_self)
  · rw [hlast]
    exact verify_roleToken _

/-- After a login alone, the tokens of the user make the user a viewer. -/
theorem roles_contained_logIn : ∃ router, Documented routes router ∧
    Step router oneUser {"eve"} True start (start.request router oneUser logIn) ∧
    ∀ req, Can oneUser {"eve"} (start.request router oneUser logIn) req →
    ∀ token claims, req.token = some token →
      oneUser.codec.verifyToken oneUser.jwtSecret 0 token = .ok claims →
        claims.sub = some "eve" ∧ ∀ role ∈ claims.roles.getD ["viewer"], role = "viewer" := by
  obtain ⟨router, hrouter⟩ := exists_documented_routes
  have hstep : Step router oneUser {"eve"} True start (start.request router oneUser logIn) := by
    refine .request _ can_logIn fun _ => ?_
    rintro ⟨name, hname, -⟩
    obtain ⟨args, hanswer, -⟩ := router_logIn hrouter
    rw [Request.configFile, show router logIn.routedMethod logIn.path = _ from hanswer] at hname
    cases hname
  have hnow : (start.request router oneUser logIn).server.now = 0 := by
    rw [request_start hrouter]
    rfl
  refine ⟨router, hrouter, hstep, fun req hcan token claims ht hv => ?_⟩
  obtain ⟨user, rfl, hsub, hroles⟩ := (roles_contained router oneUser lawful_unaryCodec (strategy_ne 0)
    {"eve"} start _ contained_start (.single hstep)).2 req hcan token claims ht (hnow ▸ hv)
  exact ⟨hsub, fun role hrole => eq_viewer_of_gives (hroles role hrole)⟩

end Coriolis.Api
