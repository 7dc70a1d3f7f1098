import Coriolis.Api.Middleware
import Coriolis.Auth.Manager

/-!
# The configuration and the roles of users

The users file and the configuration, with the secret that signs tokens, can be read and
written through the API, and a login reads the users file. `ConfigsController` asks no policy,
unlike the other controllers.
-/

namespace Coriolis.Api

open Routing
open Coriolis.Auth (AuthManager Claims)

/-- The files and the clock of the API server. -/
structure Server where
  files : String → Option Text
  now : Nat

/-- The answer of a controller. Those that neither read nor write files are not told apart. -/
inductive Reply where
  | token (token : Text)
  | config (id content : Text)
  | updated (id content : Text)
  | failed (code : Nat) (explanation : String)
  | other

def allowedConfigs : List String := ["coriolis.conf", "api-paste.ini", "policy.yaml", "users.yaml"]

def slugMap : List (String × String) :=
  [("coriolis", "coriolis.conf"), ("coriolis.conf", "coriolis.conf"),
    ("api-paste", "api-paste.ini"), ("api-paste.ini", "api-paste.ini"),
    ("policy", "policy.yaml"), ("policy.yaml", "policy.yaml"), ("users", "users.yaml"),
    ("users.yaml", "users.yaml")]

/-- The file that an id stands for, if it is one of those allowed. -/
def configName (id : Text) : Option String :=
  let name := (slugMap.lookup (String.ofList id)).getD (String.ofList id)
  if allowedConfigs.contains name then some name else none

def configPath (name : String) : String := "/etc/coriolis/" ++ name

/-- `ConfigsController.show`. -/
def showConfig (srv : Server) (id : Text) : Reply :=
  match configName id with
  | none => .failed 400 ("Invalid config file: " ++ String.ofList id)
  | some name =>
    match srv.files (configPath name) with
    | none => .failed 404 ("Config file not found: " ++ String.ofList id)
    | some content => .config id content

def Server.write (srv : Server) (path : String) (content : Text) : Server :=
  { srv with files := Function.update srv.files path (some content) }

/-- `ConfigsController.update`. The call raises if there is no body. Content that is no text is
found out when the file is open, and empty. -/
def updateConfig (srv : Server) (id : Text) (body : Option Json) : Server × Reply :=
  match body, configName id with
  | none, _ => (srv, .failed 400 "")
  | some _, none => (srv, .failed 400 ("Invalid config file: " ++ String.ofList id))
  | some (.obj fields), some name =>
    match (fields.lookup "config").getD (.obj []) with
    | .obj config =>
      match (config.lookup "content").getD .null with
      | .null => (srv, .failed 400 "Missing 'content' field in request body")
      | .str content => (srv.write (configPath name) content.toList, .updated id content.toList)
      | _ => (srv.write (configPath name) [], .failed 500 "")
    | _ => (srv, .failed 500 "")
  | some _, some _ => (srv, .failed 500 "")

def Request.jsonBody (req : Request) : Json :=
  match req.body with
  | .untyped (some value) => value
  | .json (some value) => value
  | _ => .obj []

def Request.credentials (req : Request) : Option (String × Text) :=
  match req.jsonBody with
  | .obj fields =>
    match (fields.lookup "auth").getD (.obj fields) with
    | .obj data =>
      match data.lookup "username", data.lookup "password" with
      | some (.str username), some (.str password) =>
        if username = "" ∨ password = "" then none else some (username, password.toList)
      | _, _ => none
    | _ => none
  | _ => none

/-- `AuthController.login`. -/
def login (mgr : AuthManager) (srv : Server) (req : Request) (args : Args) : Reply :=
  match req.credentials with
  | none => .failed 400 "Missing 'username' or 'password' in request body"
  | some (username, password) =>
    match mgr.authenticate (srv.files mgr.localUsersFile) username password with
    | none => .failed 401 "Invalid username or password"
    | some info =>
      .token (mgr.issueToken srv.now info
        (String.ofList ((args.lookup "project_id").getD "admin".toList)))

def payload (claims : Claims) : Payload := ⟨claims.sub, claims.roles, claims.projectId⟩

def verifier (mgr : AuthManager) (now : Nat) : Verifier :=
  ⟨mgr.strategy, fun token => (mgr.codec.verifyToken mgr.jwtSecret now token).map payload⟩

/-- The file that a request is routed to show or to update. -/
def Request.configFile (router : Mapper Controller) (req : Request) : Option String :=
  match router req.routedMethod req.path with
  | some (controller, action, args) =>
    if controller = .configs ∧ (action = "show" ∨ action = "update") then
      configName ((args.lookup "id").getD [])
    else none
  | none => none

def serve (router : Mapper Controller) (mgr : AuthManager) (srv : Server) (req : Request) :
    Server × Reply :=
  match handle router (verifier mgr srv.now) req with
  | .dispatched .auth "login" args _ _ => (srv, login mgr srv req args)
  | .dispatched .configs "show" args _ _ => (srv, showConfig srv ((args.lookup "id").getD []))
  | .dispatched .configs "update" args body _ =>
    updateConfig srv ((args.lookup "id").getD []) body
  | _ => (srv, .other)

section

variable {body : Option Json}

lemma updateConfig_cases (srv : Server) (id : Text) (body : Option Json) :
    ((updateConfig srv id body).1 = srv ∨ ∃ name content, configName id = some name ∧
        (updateConfig srv id body).1 = srv.write (configPath name) content) ∧
      ((∃ code text, (updateConfig srv id body).2 = .failed code text) ∨
        ∃ content, (updateConfig srv id body).2 = .updated id content) := by
  unfold updateConfig
  split
  · exact ⟨.inl rfl, .inl ⟨_, _, rfl⟩⟩
  · exact ⟨.inl rfl, .inl ⟨_, _, rfl⟩⟩
  · rename_i fields name hname
    split
    · split
      · exact ⟨.inl rfl, .inl ⟨_, _, rfl⟩⟩
      · exact ⟨.inr ⟨name, _, hname, rfl⟩, .inr ⟨_, rfl⟩⟩
      · exact ⟨.inr ⟨name, _, hname, rfl⟩, .inl ⟨_, _, rfl⟩⟩
    · exact ⟨.inl rfl, .inl ⟨_, _, rfl⟩⟩
  · exact ⟨.inl rfl, .inl ⟨_, _, rfl⟩⟩

lemma showConfig_cases (srv : Server) (id : Text) :
    (∃ code text, showConfig srv id = .failed code text) ∨
      ∃ content, showConfig srv id = .config id content := by
  unfold showConfig
  split
  · exact .inl ⟨_, _, rfl⟩
  split
  · exact .inl ⟨_, _, rfl⟩
  · exact .inr ⟨_, rfl⟩

lemma login_cases (mgr : AuthManager) (srv : Server) (req : Request) (args : Args) :
    (∃ code text, login mgr srv req args = .failed code text) ∨
      ∃ username password info projectId, req.credentials = some (username, password) ∧
        mgr.authenticate (srv.files mgr.localUsersFile) username password = some info ∧
        login mgr srv req args = .token (mgr.issueToken srv.now info projectId) := by
  unfold login
  split
  · exact .inl ⟨_, _, rfl⟩
  rename_i username password hcred
  split
  · exact .inl ⟨_, _, rfl⟩
  rename_i info hinfo
  exact .inr ⟨username, password, info, _, hcred, hinfo, rfl⟩

lemma configFile_of_handle
    (h : handle router v req = .dispatched .configs method args body ctx)
    (hm : method = "show" ∨ method = "update") :
    req.configFile router = configName ((args.lookup "id").getD []) := by
  obtain ⟨ctx', h⟩ := route_of_handle h
  obtain ⟨action, hanswer, hmethod, -⟩ := route_eq_dispatched h
  obtain ⟨-, rfl⟩ := getMethod_eq_ok hmethod rfl
  rw [Request.configFile, hanswer]
  exact if_pos ⟨rfl, hm⟩

/-- What a request does: it writes the file it names at most, and answers with that file or with
a token for the user it names. -/
lemma serve_cases (router : Mapper Controller) (mgr : AuthManager) (srv : Server) (req : Request) :
    ((serve router mgr srv req).1 = srv ∨ ∃ name content, req.configFile router = some name ∧
        (serve router mgr srv req).1 = srv.write (configPath name) content) ∧
      (∀ id content, (serve router mgr srv req).2 = .config id content →
        req.configFile router = configName id) ∧
      ∀ token, (serve router mgr srv req).2 = .token token → ∃ username password info projectId,
        req.credentials = some (username, password) ∧
        mgr.authenticate (srv.files mgr.localUsersFile) username password = some info ∧
        token = mgr.issueToken srv.now info projectId := by
  unfold serve
  split
  · rename_i args _ _ _
    refine ⟨.inl rfl, ?_⟩
    rcases login_cases mgr srv req args with
      ⟨code, text, h⟩ | ⟨username, password, info, projectId, hcred, hinfo, h⟩
    · simp [h]
    · refine ⟨by simp [h], fun token htoken => ?_⟩
      rw [h, Reply.token.injEq] at htoken
      exact ⟨username, password, info, projectId, hcred, hinfo, htoken.symm⟩
  · rename_i args _ _ hd
    have hfile := configFile_of_handle hd (.inl rfl)
    refine ⟨.inl rfl, ?_⟩
    rcases showConfig_cases srv ((args.lookup "id").getD []) with ⟨code, text, h⟩ | ⟨content, h⟩
    · simp [h]
    · refine ⟨fun id content' hid => ?_, by simp [h]⟩
      rw [h, Reply.config.injEq] at hid
      rw [hfile, hid.1]
  · rename_i args body _ hd
    have hfile := configFile_of_handle hd (.inr rfl)
    obtain ⟨hsrv, hreply⟩ := updateConfig_cases srv ((args.lookup "id").getD []) body
    refine ⟨by rwa [hfile], ?_⟩
    rcases hreply with ⟨code, text, h⟩ | ⟨content, h⟩ <;> simp [h]
  · exact ⟨.inl rfl, fun id content h => by simp at h, fun token h => by simp at h⟩

end

end Coriolis.Api
