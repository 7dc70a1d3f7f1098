import Coriolis.Api.Router
import Coriolis.Library.Json
import Coriolis.Library.Strings

/-!
# Requests and the authentication gate

A request passes `CoriolisTokenAuthContext`, which builds its context, then the router, and
then the stack of the `Resource` it is routed to, which calls a method of a controller. The
middleware lets a request pass without a token if its path has one of a few endings. The router
knows nothing of these endings: where the last part of a template is a variable, they are
values like any other. The mapper of the router comes from a library and is a parameter.
-/

namespace Coriolis.Api

open Routing

/-- The part of `RequestContext` that the API reads. -/
structure Context where
  user : String
  projectId : String
  roles : List String
  isAdmin : Bool
  deriving DecidableEq, Repr

inductive Fault where
  | notFound
  | badRequest (explanation : String)
  deriving DecidableEq, Repr

/-- The body of a request, as far as `get_body` and the deserializers tell bodies apart. -/
inductive Body where
  /-- Content without a supported type, which may be JSON all the same. -/
  | untyped (value : Option Json)
  | csv
  /-- JSON, which may be malformed. -/
  | json (value : Option Json)

namespace Body

/-- The action that a body names, `action_peek_json`. -/
def peek : Body → Except Fault String
  | .untyped _ => .error (.badRequest "There is no such action: None")
  | .csv => .error (.badRequest "There is no such action: csv")
  | .json none => .error (.badRequest "Malformed request body")
  | .json (some (.obj [(key, _)])) => .ok key
  | .json (some (.obj _)) => .error (.badRequest "Malformed request body")
  | .json (some (.arr items)) =>
    .error (if items.length = 1 then .notFound else .badRequest "Malformed request body")
  | .json (some (.str s)) =>
    .error (if s.length = 1 then .notFound else .badRequest "Malformed request body")
  | .json (some _) => .error .notFound

/-- `Resource.deserialize`. -/
def deserialize : Body → Except Fault (Option Json)
  | .untyped _ => .ok none
  | .csv => .error (.badRequest "Unsupported Content-Type")
  | .json none => .error (.badRequest "Malformed request body")
  | .json (some value) => .ok (some value)

end Body

structure Request where
  method : String
  /-- The method the router sees, which a `_method` parameter may replace. -/
  routedMethod : String
  /-- The path below `/v1`. -/
  path : Text
  authorization : Option Text
  xAuthToken : Option Text
  body : Body

inductive Response where
  | noContent
  | unauthorized (message : String)
  | fault (f : Fault)
  /-- A method of a controller is called. -/
  | dispatched (controller : Controller) (method : String) (args : Args)
    (body : Option Json)
      (ctx : Context)

/-- `Resource.get_method`. -/
def getMethod (controller : Controller) (action : String) (body : Body) : Except Fault String :=
  if controller.methods.contains action then .ok action
  else if controller.wsgiActions.isEmpty ||
      ! ["action", "create", "delete", "update"].contains action then
    .error .notFound
  else
    match if action = "action" then body.peek else .ok action with
    | .error f => .error f
    | .ok name =>
      match controller.wsgiActions.lookup name with
      | some method => .ok method
      | none => .error (.badRequest ("There is no such action: " ++ name))

/-- `Resource._process_stack`, up to the call of the method. -/
def processStack (ctx : Context) (controller : Controller) (action : String) (args : Args)
    (body : Body) : Response :=
  match getMethod controller action body with
  | .error f => .fault f
  | .ok method =>
    match body.deserialize with
    | .error f => .fault f
    | .ok contents =>
      if (args.lookup "project_id").any fun id => !id.isEmpty && id != ctx.projectId.toList then
        .fault (.badRequest "Malformed request url")
      else .dispatched controller method args contents ctx

/-- `Router.__call__`. -/
def route (router : Mapper Controller) (ctx : Context) (req : Request) : Response :=
  match router req.routedMethod req.path with
  | none => .fault .notFound
  | some (controller, action, args) => processStack ctx controller action args req.body

/-- The claims of a token that the middleware reads. -/
structure Payload where
  sub : Option String
  roles : Option (List String)
  projectId : Option String
  deriving DecidableEq, Repr

def Payload.context (p : Payload) : Context :=
  let roles := p.roles.getD ["viewer"]
  ⟨p.sub.getD "unknown", p.projectId.getD "admin", roles, roles.contains "admin"⟩

/-- What the middleware asks the `AuthManager` for. -/
structure Verifier where
  strategy : String
  verifyToken : Text → Except String Payload

def Request.token (req : Request) : Option Text :=
  let header := req.authorization.getD []
  let token := if "Bearer ".toList.isPrefixOf header then Strings.strip (header.drop 7)
    else Strings.strip (req.xAuthToken.getD [])
  if token.isEmpty then none else some token

/-- `_is_unprotected_path`. -/
def isUnprotectedPath (path : Text) : Bool :=
  let clean := path.rdropWhile (· == '/')
  "/auth/login".toList.isSuffixOf clean || "/auth/status".toList.isSuffixOf clean ||
    "/swagger.json".toList.isSuffixOf clean || "/swagger.html".toList.isSuffixOf clean ||
    clean == "/v1".toList || clean == []

def anonymous : Context := ⟨"anonymous", "admin", ["viewer"], false⟩

/-- `CoriolisTokenAuthContext.__call__`. -/
def handle (router : Mapper Controller) (mgr : Verifier) (req : Request) : Response :=
  if req.method = "OPTIONS" then .noContent
  else if mgr.strategy = "none" then route router ⟨"admin", "admin", ["admin"], true⟩ req
  else if isUnprotectedPath req.path then route router anonymous req
  else
    match req.token with
    | none => .unauthorized "Authentication required. Please provide a Bearer token."
    | some token =>
      match mgr.verifyToken token with
      | .error e => .unauthorized ("Invalid or expired token: " ++ e)
      | .ok payload => route router payload.context req

def Request.Authenticated (mgr : Verifier) (req : Request) : Prop :=
  ∃ token payload, req.token = some token ∧ mgr.verifyToken token = .ok payload

/-- Only the login and the status are there for requests without a valid token. -/
def Guarded (router : Mapper Controller) (mgr : Verifier) (req : Request) : Prop :=
  ∀ controller method args body ctx,
    handle router mgr req = .dispatched controller method args body ctx →
      controller = .auth ∧ (method = "login" ∨ method = "status") ∨ req.Authenticated mgr

section

variable {ctx ctx' : Context}

lemma getMethod_eq_ok {body : Body} (h : getMethod controller action body = .ok method)
    (hw : controller.wsgiActions = []) :
    controller.methods.contains action = true ∧ method = action := by
  rw [getMethod] at h
  split at h
  · rename_i ha
    exact ⟨ha, (Except.ok.inj h).symm⟩
  · simp [hw] at h

/-- What a request has passed when a method of a controller is called. -/
lemma route_eq_dispatched
    (h : route router ctx req = .dispatched controller method args body ctx') :
    ∃ action, router req.routedMethod req.path = some (controller, action, args) ∧
      getMethod controller action req.body = .ok method ∧ req.body.deserialize = .ok body ∧
      ctx' = ctx ∧ (args.lookup "project_id").any (fun id =>
        !id.isEmpty && id != ctx.projectId.toList) = false := by
  rw [route] at h
  split at h
  · simp at h
  rename_i controller' action args' hr
  rw [processStack] at h
  split at h
  · simp at h
  rename_i method' hm
  split at h
  · simp at h
  rename_i contents hb
  split at h
  · simp at h
  rename_i hp
  simp only [Response.dispatched.injEq] at h
  obtain ⟨rfl, rfl, rfl, rfl, rfl⟩ := h
  exact ⟨action, hr, hm, hb, rfl, by simpa using hp⟩

lemma route_of_handle (h : handle router mgr req = .dispatched controller method args body ctx) :
    ∃ ctx', route router ctx' req = .dispatched controller method args body ctx := by
  rw [handle] at h
  split at h
  · simp at h
  split at h
  · exact ⟨_, h⟩
  split at h
  · exact ⟨_, h⟩
  split at h
  · simp at h
  split at h
  · simp at h
  · exact ⟨_, h⟩

end

end Coriolis.Api
