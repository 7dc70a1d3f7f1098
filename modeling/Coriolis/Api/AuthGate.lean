import Coriolis.Api.Middleware

/-!
# The paths behind the gate

Which actions can be reached without a token is a matter of two languages: the endings that the
middleware lets pass, and the templates of the router. A path with one of the endings of the
login and the status is routed to these two, or to actions that no controller has. A path that
ends in the name of a swagger document is the path of a member of a collection with that name.
-/

namespace Coriolis.Api

open Routing

variable {router : Mapper Controller} {mgr : Verifier} {req : Request} {r r' : Route Controller}
  {args args' : Args} {path : Text}

def swaggerFiles : List Text := ["swagger.json".toList, "swagger.html".toList]

/-- The routes that end in a variable, of controllers that have their action. -/
def memberRoutes : List (Route Controller) :=
  routes.filter fun r =>
    r.parts.getLast?.any (·.isVar) && r.controller.methods.contains r.action

/-- The path is the one of a member, named like a swagger document, of a collection in the
project that requests without a token are in. -/
def ExposesMember (req : Request) : Prop :=
  ∃ r ∈ memberRoutes, r.methods = .one req.routedMethod ∧ ∃ init, ∃ file ∈ swaggerFiles,
    segments req.path = some (init ++ [file]) ∧ init.head? = some "admin".toList ∧
    List.Forall₂ Part.Suits r.parts (init ++ [file])

/-- The methods that requests for members are dispatched to. -/
example : memberRoutes.map (fun r => (r.controller, r.action)) =
    [.regions, .endpoints, .services, .minionPools].flatMap (fun c =>
        [(c, "update"), (c, "delete"), (c, "show")]) ++
      [(.endpointInstances, "show"), (.providerSchemas, "index"), (.deployments, "delete"),
        (.deployments, "show"), (.transfers, "update"), (.transfers, "delete"),
        (.transfers, "show"), (.transferTasksExecutions, "delete"),
        (.transferTasksExecutions, "show"), (.transferSchedules, "update"),
        (.transferSchedules, "delete"), (.transferSchedules, "show"), (.configs, "update"),
        (.configs, "show")] := by decide

lemma routes_proper : ∀ r ∈ routes, r.parts.getLast? ≠ some "" ∧ 2 ≤ r.parts.length := by
  decide +kernel

lemma routes_auth : ∀ r ∈ routes, r.parts.dropLast.getLast?.any (·.may ["auth"]) = true →
    r.parts.getLast?.any (·.may ["login", "status"]) = true →
      r.controller = .auth ∧ (r.action = "login" ∨ r.action = "status") ∨
        r.controller.methods.contains r.action = false ∧ r.controller.wsgiActions = [] := by
  decide +kernel

/-- A template for a file of swagger ends in a variable and begins with the project, and does not
lead to an action that is named in the body. -/
lemma routes_swagger : ∀ r ∈ routes,
    r.parts.getLast?.any (·.may ["swagger", "swagger.json", "swagger.html"]) = true →
      r.parts.getLast?.any (·.isVar) = true ∧ r.controller.wsgiActions = [] ∧
        r.parts.head? = some (.param "project_id") ∧
        (∀ p ∈ r.parts.dropLast, p.isRestricted = false) ∧
        ∃ m ∈ ["GET", "PUT", "DELETE", "POST"], r.methods = .one m := by
  decide +kernel

lemma routes_unique : ∀ m ∈ ["GET", "PUT", "DELETE", "POST"],
    (routes.filter fun r => r.parts.getLast?.any (·.isVar) && r.methods = .one m).Pairwise
      Route.Apart := by
  decide +kernel

/-- How a path that is let pass without a token ends. -/
lemma of_isUnprotectedPath (h : isUnprotectedPath path = true) :
    (∃ x, path = x ++ ['/']) ∨ path = [] ∨ path = "/v1".toList ∨
      ∃ s ∈ ["/auth/login", "/auth/status", "/swagger.json", "/swagger.html"], s.toList <:+ path := by
  rcases rdropWhile_eq_self_or path with hclean | hslash
  · simp only [isUnprotectedPath, hclean, Bool.or_eq_true, List.isSuffixOf_iff_suffix,
      beq_iff_eq] at h
    right
    rcases h with ((((h | h) | h) | h) | h) | h
    iterate 4 exact .inr (.inr ⟨_, by simp, h⟩)
    · exact .inr (.inl h)
    · exact .inl h
  · exact .inl hslash

lemma getLast?_of_suffix (hs : s.getLast? = some c) (h : s <:+ path) : path.getLast? = some c := by
  obtain ⟨x, rfl⟩ := h
  rw [List.getLast?_append, hs]
  rfl

lemma getLast?_of_isUnprotectedPath (h : isUnprotectedPath path = true) :
    path.getLast? ≠ some '\n' := by
  have hlast : ∀ s ∈ ["/auth/login", "/auth/status", "/swagger.json", "/swagger.html"],
      s.toList.getLast?.any (· ≠ '\n') = true := by decide
  rcases of_isUnprotectedPath h with ⟨x, rfl⟩ | rfl | rfl | ⟨s, hs, h⟩
  · simp
  · simp
  · decide
  · obtain ⟨c, hc, hne⟩ := (Option.any_eq_true _ _).mp (hlast s hs)
    rw [getLast?_of_suffix hc h]
    simpa using hne

/-- The last segments of a path that is let pass and has the template of a route. -/
lemma segments_of_isUnprotectedPath (hr : r ∈ routes) (hfits : r.Fits method path args)
    (h : isUnprotectedPath path = true) : ∃ init name, segments path = some (init ++ [name]) ∧
      (name ∈ swaggerFiles ∨
        name ∈ ["login".toList, "status".toList] ∧ init.getLast? = some "auth".toList) := by
  obtain ⟨hlast, hlength⟩ := routes_proper r hr
  obtain ⟨segs, hsegs, hne⟩ := hfits.exists_segments
  rcases of_isUnprotectedPath h with ⟨x, hx⟩ | rfl | rfl | ⟨s, hs, h⟩
  · -- the empty last segment of a path with a slash at its end fits no template
    obtain ⟨init, rfl⟩ := segments_of_suffix (s := []) ⟨x, hx.symm⟩ (by simp) hsegs
    obtain ⟨ps, p, value, hvalue, hparts, -, hp⟩ := hfits.last hsegs
    obtain rfl : value = [] := by simpa [show stems [] = [[]] by decide] using hvalue
    rw [hparts, List.getLast?_concat] at hlast
    cases p with
    | literal text =>
      obtain rfl : "" = text := String.toList_inj.mp hp
      exact absurd rfl hlast
    | var => exact absurd rfl hp.1
  · exact absurd (Option.some.inj hsegs).symm hne
  · -- a single segment is too short for every template
    obtain ⟨ps, p, _, _, hparts, hps, -⟩ := hfits.last
      (show segments "/v1".toList = some ([] ++ ["v1".toList]) by decide)
    rw [hparts, List.forall₂_nil_right_iff.mp hps] at hlength
    simp at hlength
  · simp only [List.mem_cons, List.not_mem_nil, or_false] at hs
    rcases hs with rfl | rfl | rfl | rfl
    · obtain ⟨init, rfl⟩ := segments_of_suffix₂ (r := "auth".toList) (s := "login".toList) h
        (by decide) (by decide) hsegs
      exact ⟨init ++ ["auth".toList], "login".toList, by simpa using hsegs, .inr (by simp)⟩
    · obtain ⟨init, rfl⟩ := segments_of_suffix₂ (r := "auth".toList) (s := "status".toList) h
        (by decide) (by decide) hsegs
      exact ⟨init ++ ["auth".toList], "status".toList, by simpa using hsegs, .inr (by simp)⟩
    · obtain ⟨init, rfl⟩ := segments_of_suffix (s := "swagger.json".toList) h (by decide) hsegs
      exact ⟨init, _, hsegs, .inl (by decide)⟩
    · obtain ⟨init, rfl⟩ := segments_of_suffix (s := "swagger.html".toList) h (by decide) hsegs
      exact ⟨init, _, hsegs, .inl (by decide)⟩

lemma mem_stems_of_mem_swaggerFiles : ∀ file ∈ swaggerFiles, ∀ value ∈ stems file,
    value ∈ ["swagger", "swagger.json", "swagger.html"].map String.toList := by
  decide

lemma mem_stems_of_auth : ∀ name ∈ ["login".toList, "status".toList], ∀ value ∈ stems name,
    value ∈ ["login", "status"].map String.toList := by
  decide

lemma plain_of_mem_swaggerFiles : ∀ file ∈ swaggerFiles, file ≠ [] ∧ plain file = true := by
  decide

/-- What a route for a file of swagger is like. -/
lemma routes_swagger_of_fits (hr : r ∈ routes) (hfits : r.Fits method path args)
    (hfile : file ∈ swaggerFiles) (hsegs : segments path = some (init ++ [file])) :
    r.parts.getLast?.any (·.isVar) = true ∧ r.controller.wsgiActions = [] ∧
      r.methods = .one method ∧ method ∈ ["GET", "PUT", "DELETE", "POST"] ∧
      List.Forall₂ Part.Suits r.parts (init ++ [file]) ∧
      ∃ project, init.head? = some project ∧ project ≠ [] ∧
        args.lookup "project_id" = some project := by
  obtain ⟨ps, p, value, hvalue, hparts, hps, hp⟩ := hfits.last hsegs
  have hmay := Part.may_of_takes hp (mem_stems_of_mem_swaggerFiles file hfile value hvalue)
  obtain ⟨hvar, hw, hhead, hfree, m, hm, hmethods⟩ := routes_swagger r hr (by simp [hparts, hmay])
  obtain rfl : method = m := by simpa [hmethods, Methods.accepts] using hfits.1
  refine ⟨hvar, hw, hmethods, hm, ?_, ?_⟩
  · rw [hparts, List.dropLast_concat] at hfree
    rw [hparts]
    refine List.rel_append (suits_of_takes hps hfree) (.cons ?_ .nil)
    cases p with
    | literal text => simp [hparts, Part.isVar] at hvar
    | var name restricted =>
      exact (plain_of_mem_swaggerFiles file hfile).imp_right fun h _ => h
  · cases ps with
    | nil => simpa [hparts] using (routes_proper r hr).2
    | cons q ps =>
      obtain rfl : q = .param "project_id" := by simpa [hparts] using hhead
      obtain ⟨project, rest, ⟨hne, hlookup⟩, -, rfl⟩ := List.forall₂_cons_left_iff.mp hps
      exact ⟨project, rfl, hne, hlookup⟩

/-- Without a token, a path that is let pass leads to the login, to the status, or to a member
that is named like a swagger document. -/
lemma route_anonymous (hrouter : Documented routes router) (h : isUnprotectedPath req.path = true)
    (hd : route router anonymous req = .dispatched controller method args body ctx) :
    controller = .auth ∧ (method = "login" ∨ method = "status") ∨ ExposesMember req := by
  obtain ⟨action, hanswer, hm, -, -, hproject⟩ := route_eq_dispatched hd
  obtain ⟨r, hr, rfl, rfl, hfits⟩ :=
    hrouter.sound _ _ _ _ _ (getLast?_of_isUnprotectedPath h) hanswer
  obtain ⟨init, name, hsegs, hname⟩ := segments_of_isUnprotectedPath hr hfits h
  rcases hname with hfile | ⟨hname, hauth⟩
  · obtain ⟨hvar, hw, hmethods, -, hsuits, project, hhead, hne, hlookup⟩ :=
      routes_swagger_of_fits hr hfits hfile hsegs
    obtain ⟨hcontains, -⟩ := getMethod_eq_ok hm hw
    refine .inr ⟨r, List.mem_filter.mpr ⟨hr, by rw [hvar, hcontains]; rfl⟩, hmethods, init, name,
      hfile, hsegs, ?_, hsuits⟩
    rw [hlookup] at hproject
    rw [hhead]
    simpa [hne, anonymous] using hproject
  · obtain ⟨ps, p, value, hvalue, hparts, hps, hp⟩ := hfits.last hsegs
    obtain ⟨init, rfl⟩ := List.getLast?_eq_some_iff.mp hauth
    obtain ⟨ps, q, rfl, -, hq⟩ := forall₂_concat hps
    have hmay : r.parts.dropLast.getLast?.any (·.may ["auth"]) = true := by
      simp [hparts, Part.may_of_takes hq (show _ ∈ ["auth"].map String.toList by simp)]
    have hmay' : r.parts.getLast?.any (·.may ["login", "status"]) = true := by
      simp [hparts, Part.may_of_takes hp (mem_stems_of_auth name hname value hvalue)]
    rcases routes_auth r hr hmay hmay' with ⟨hc, ha⟩ | ⟨hno, hw⟩
    · obtain ⟨-, rfl⟩ := getMethod_eq_ok hm (by rw [hc]; rfl)
      exact .inl ⟨hc, ha⟩
    · rw [(getMethod_eq_ok hm hw).1] at hno
      cases hno

lemma isUnprotectedPath_of_segments (hfile : file ∈ swaggerFiles)
    (hsegs : segments path = some (init ++ [file])) : isUnprotectedPath path = true := by
  have hclean : path.rdropWhile (· == '/') = path := by
    refine (rdropWhile_eq_self_or path).resolve_right ?_
    rintro ⟨x, hx⟩
    obtain ⟨init', h⟩ := segments_of_suffix (s := []) ⟨x, hx.symm⟩ (by simp) hsegs
    exact absurd (List.singleton_inj.mp (List.append_inj' h rfl).2)
      (plain_of_mem_swaggerFiles file hfile).1
  have hsuffix := suffix_of_segments hsegs
  simp only [isUnprotectedPath, hclean, Bool.or_eq_true, List.isSuffixOf_iff_suffix]
  have hcases : file = "swagger.json".toList ∨ file = "swagger.html".toList := by
    simpa [swaggerFiles] using hfile
  rcases hcases with rfl | rfl
  · exact .inl (.inl (.inl (.inr hsuffix)))
  · exact .inl (.inl (.inr hsuffix))

/-- The answer to a request for a member that is named like a swagger document. -/
lemma router_of_suits (hrouter : Documented routes router) (hr : r ∈ memberRoutes)
    (hmethods : r.methods = .one method) (hfile : file ∈ swaggerFiles)
    (hsegs : segments path = some (init ++ [file]))
    (hsuits : List.Forall₂ Part.Suits r.parts (init ++ [file])) :
    ∃ args, router method path = some (r.controller, r.action, args) ∧
      args.lookup "project_id" = init.head? := by
  obtain ⟨hmem, hmember⟩ := List.mem_filter.mp hr
  obtain ⟨hvar, -⟩ := Bool.and_eq_true_iff.mp hmember
  obtain ⟨⟨controller, action, args⟩, hanswer⟩ :=
    hrouter.complete r hmem method path _ hmethods hsegs hsuits
  obtain ⟨r', hr', rfl, rfl, hfits⟩ := hrouter.sound _ _ _ _ _
    (getLast?_of_isUnprotectedPath (isUnprotectedPath_of_segments hfile hsegs)) hanswer
  obtain ⟨hvar', -, hmethods', hmethod, hsuits', project, hhead, -, hlookup⟩ :=
    routes_swagger_of_fits hr' hfits hfile hsegs
  -- no other route of the method fits a path of the same segments
  obtain rfl : r = r' := by
    by_contra hne
    have hapart := (routes_unique method hmethod).forall
      (List.mem_filter.mpr ⟨hmem, by simp [hvar, hmethods]⟩)
      (List.mem_filter.mpr ⟨hr', by simp [hvar', hmethods']⟩) hne
    exact absurd (unifiable_of_suits hsuits hsuits') (by rw [hapart]; decide)
  exact ⟨args, hanswer, hlookup.trans hhead.symm⟩

/-- A member that is named like a swagger document is reached without a token. -/
lemma route_of_exposesMember (hrouter : Documented routes router) (h : ExposesMember req)
    (hb : req.body.deserialize.isOk = true) :
    isUnprotectedPath req.path = true ∧ ∃ r ∈ memberRoutes, ∃ args body,
      route router anonymous req = .dispatched r.controller r.action args body anonymous := by
  obtain ⟨r, hr, hmethods, init, file, hfile, hsegs, hhead, hsuits⟩ := h
  obtain ⟨args, hanswer, hlookup⟩ := router_of_suits hrouter hr hmethods hfile hsegs hsuits
  have hcontains := (Bool.and_eq_true_iff.mp (List.mem_filter.mp hr).2).2
  refine ⟨isUnprotectedPath_of_segments hfile hsegs, r, hr, args, ?_⟩
  have hmethod : getMethod r.controller r.action req.body = .ok r.action := by
    rw [getMethod, if_pos hcontains]
  rcases hbody : req.body.deserialize with f | body
  · simp [hbody, Except.isOk, Except.toBool] at hb
  · refine ⟨body, ?_⟩
    simp [route, hanswer, processStack, hmethod, hbody, hlookup, hhead, anonymous]

lemma memberRoutes_ne_auth : ∀ r ∈ memberRoutes, r.controller ≠ .auth := by decide

/-- The gate is closed for a request exactly if it carries a token that is accepted, or is not
one for a member that is named like a swagger document. -/
theorem guarded_iff (router : Mapper Controller) (hrouter : Documented routes router)
    (mgr : Verifier) (hstrategy : mgr.strategy ≠ "none") (req : Request) :
    Guarded router mgr req ↔ req.Authenticated mgr ∨
      ¬(req.method ≠ "OPTIONS" ∧ req.body.deserialize.isOk = true ∧ ExposesMember req) := by
  constructor
  · intro h
    by_contra hno
    obtain ⟨htoken, hno⟩ := not_or.mp hno
    obtain ⟨hmethod, hbody, hexposed⟩ := not_not.mp hno
    obtain ⟨hpath, r, hr, args, body, hroute⟩ := route_of_exposesMember hrouter hexposed hbody
    have hhandle : handle router mgr req =
        .dispatched r.controller r.action args body anonymous := by
      simp [handle, hmethod, hstrategy, hpath, hroute]
    rcases h _ _ _ _ _ hhandle with ⟨hauth, -⟩ | hauth
    · exact memberRoutes_ne_auth r hr hauth
    · exact htoken hauth
  · rintro h controller method args body ctx hd
    rw [handle] at hd
    split at hd
    · simp at hd
    rename_i hmethod
    split at hd
    · rename_i hpath
      refine (route_anonymous hrouter hpath hd).imp_right fun hexposed => h.resolve_right ?_
      obtain ⟨-, -, -, hbody, -⟩ := route_eq_dispatched hd
      exact not_not.mpr ⟨hmethod, by rw [hbody]; rfl, hexposed⟩
    · split at hd
      · simp at hd
      rename_i token htoken
      split at hd
      · simp at hd
      rename_i payload hpayload
      exact .inr ⟨token, payload, htoken, hpayload⟩

def rejecting : Verifier := ⟨"hybrid", fun _ => .error "Token signature mismatch"⟩

/-- A request without a token for a path of the project `admin`. -/
def getRequest (path : String) : Request := ⟨"GET", "GET", path.toList, none, none, .untyped none⟩

def swaggerTransfer : Request := getRequest "/admin/transfers/swagger.json"

/-- A transfer with the name of the swagger document is shown to everyone. -/
theorem member_exposed :
    (∃ router, Documented routes router) ∧ rejecting.strategy ≠ "none" ∧
      swaggerTransfer.token = none ∧ ∀ router, Documented routes router →
        ¬Guarded router rejecting swaggerTransfer ∧
        ∃ args body, handle router rejecting swaggerTransfer =
          .dispatched .transfers "show" args body anonymous := by
  refine ⟨exists_documented_routes, by decide, by decide, fun router hrouter => ?_⟩
  have hshow : (⟨[.param "project_id", "transfers", .var "id" true], .one "GET", .transfers,
      "show"⟩ : Route Controller) ∈ memberRoutes := by decide +kernel
  have hsegs : segments swaggerTransfer.path =
      some (["admin".toList, "transfers".toList] ++ ["swagger.json".toList]) := by decide
  obtain ⟨args, hanswer, hlookup⟩ := router_of_suits hrouter hshow rfl (by decide) hsegs
    (.cons ⟨by decide, nofun⟩ (.cons rfl (.cons ⟨by decide, fun _ => by decide⟩ .nil)))
  have hhandle : handle router rejecting swaggerTransfer =
      .dispatched .transfers "show" args none anonymous := by
    rw [handle, if_neg (by decide), if_neg (by decide), if_pos (by decide), route,
      show router swaggerTransfer.routedMethod swaggerTransfer.path = _ from hanswer]
    simp [processStack, getMethod, hlookup, anonymous, swaggerTransfer, getRequest, Body.deserialize,
      Controller.methods]
  refine ⟨fun h => ?_, args, none, hhandle⟩
  rcases h _ _ _ _ _ hhandle with ⟨h, -⟩ | ⟨token, payload, h, -⟩
  · cases h
  · cases h

/-- Other transfers are not. -/
theorem guarded_iff_transfer : ∃ router, Documented routes router ∧
    Guarded router rejecting (getRequest "/admin/transfers/7") := by
  obtain ⟨router, hrouter⟩ := exists_documented_routes
  refine ⟨router, hrouter, (guarded_iff router hrouter rejecting (by decide) _).mpr (.inr ?_)⟩
  rintro ⟨-, -, r, -, -, init, file, hfile, hsegs, -⟩
  have hlast : (segments "/admin/transfers/7".toList).bind (·.getLast?) = some "7".toList := by
    decide
  rw [show segments "/admin/transfers/7".toList = _ from hsegs] at hlast
  obtain rfl : file = "7".toList := by simpa using hlast
  exact absurd hfile (by decide)

end Coriolis.Api
