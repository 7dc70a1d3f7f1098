import Coriolis.Library.Routing

/-!
# The routes of the API

The router of version 1 maps the paths below `/v1` to the actions of controllers. Most routes
come in families, one for each collection of resources, and begin with the project. The redirection
of the empty path calls no controller and is left out.
-/

namespace Coriolis.Api

open Routing

inductive Controller where
  | providers | regions | endpoints | services | minionPools | minionPoolActions
  | endpointSourceMinionPoolOptions | endpointDestinationMinionPoolOptions | endpointActions
  | endpointInstances | endpointInventory | endpointNetworks | endpointStorage
  | endpointDestinationOptions | endpointSourceOptions | providerSchemas | deployments
  | deploymentActions | transfers | transferActions | transferTasksExecutions
  | transferTasksExecutionActions | transferSchedules | diagnostics | configs | auth
  deriving DecidableEq, Repr

namespace Controller

def methods : Controller → List String
  | providers | diagnostics | providerSchemas | endpointInventory | endpointNetworks
  | endpointStorage | endpointDestinationOptions | endpointSourceOptions
  | endpointSourceMinionPoolOptions | endpointDestinationMinionPoolOptions => ["index"]
  | regions | endpoints | services | minionPools | transferSchedules =>
    ["show", "index", "create", "update", "delete"]
  | endpointInstances => ["index", "show"]
  | deployments => ["show", "index", "detail", "create", "delete"]
  | transfers => ["show", "index", "detail", "create", "delete", "update"]
  | transferTasksExecutions => ["show", "index", "detail", "create", "delete"]
  | configs => ["index", "show", "update"]
  | auth => ["login", "me", "status"]
  | minionPoolActions | endpointActions | deploymentActions | transferActions
  | transferTasksExecutionActions => []

/-- The actions that a request names in its body, with their methods. -/
def wsgiActions : Controller → List (String × String)
  | minionPoolActions => [("allocate", "_allocate_pool"), ("refresh", "_refresh_pool"),
      ("deallocate", "_deallocate_pool")]
  | endpointActions => [("validate-connection", "_validate_connection")]
  | deploymentActions => [("cancel", "_cancel")]
  | transferActions => [("delete-disks", "_delete_disks")]
  | transferTasksExecutionActions => [("cancel", "_cancel")]
  | _ => []

end Controller

def projectPath (path : List Part) : List Part := .param "project_id" :: path

/-- `ProjectMapper.resource`. The ids of members are restricted by the mapper, and those of the
configurations also by the requirement that the router gives. -/
def projectResource (path : List Part) (controller : Controller)
    (collection member : List (String × String)) : List (Route Controller) :=
  resource (projectPath path) controller collection member

/-- `APIRouter._setup_routes`. -/
def routes : List (Route Controller) :=
  let detail := [("detail", "GET")]
  let action := [("action", "POST")]
  let actions (path : List Part) (controller : Controller) : List (Route Controller) :=
    [connect (projectPath path) (.within "POST") controller "action"]
  projectResource ["providers"] .providers [] [] ++
  projectResource ["regions"] .regions detail [] ++
  projectResource ["endpoints"] .endpoints detail action ++
  projectResource ["services"] .services detail [] ++
  projectResource ["minion_pools"] .minionPools detail [] ++
  actions ["minion_pools", .param "id", "actions"] .minionPoolActions ++
  projectResource ["endpoints", .param "endpoint_id", "source-minion-pool-options"]
    .endpointSourceMinionPoolOptions [] [] ++
  projectResource ["endpoints", .param "endpoint_id", "destination-minion-pool-options"]
    .endpointDestinationMinionPoolOptions [] [] ++
  actions ["endpoints", .param "id", "actions"] .endpointActions ++
  projectResource ["endpoints", .param "endpoint_id", "instances"] .endpointInstances [] [] ++
  projectResource ["endpoints", .param "endpoint_id", "inventory"]
    .endpointInventory [] [] ++
  projectResource ["endpoints", .param "endpoint_id", "networks"]
    .endpointNetworks [] [] ++
  projectResource ["endpoints", .param "endpoint_id", "storage"]
    .endpointStorage [] [] ++
  projectResource ["endpoints", .param "endpoint_id", "destination-options"]
    .endpointDestinationOptions [] [] ++
  projectResource ["endpoints", .param "endpoint_id", "source-options"]
    .endpointSourceOptions [] [] ++
  projectResource ["providers", .param "platform_name", "schemas", .param "provider_type"]
    .providerSchemas [] [] ++
  projectResource ["deployments"] .deployments detail action ++
  actions ["deployments", .param "id", "actions"] .deploymentActions ++
  projectResource ["transfers"] .transfers detail action ++
  actions ["transfers", .param "id", "actions"] .transferActions ++
  projectResource ["transfers", .param "transfer_id", "executions"]
    .transferTasksExecutions detail action ++
  actions ["transfers", .param "transfer_id", "executions", .param "id", "actions"]
    .transferTasksExecutionActions ++
  projectResource ["transfers", .param "transfer_id", "schedules"]
    .transferSchedules [("index", "GET")] action ++
  projectResource ["diagnostics"] .diagnostics [] [] ++
  projectResource ["configs"] .configs [] [] ++
  [connect ["auth", "login"] (.one "POST") .auth "login",
    connect (projectPath ["auth", "login"]) (.one "POST") .auth "login",
    connect ["auth", "me"] (.one "GET") .auth "me",
    connect (projectPath ["auth", "me"]) (.one "GET") .auth "me",
    connect ["auth", "status"] (.one "GET") .auth "status",
    connect (projectPath ["auth", "status"]) (.one "GET") .auth "status"]

lemma exists_documented_routes : ∃ router, Documented routes router :=
  exists_documented (by decide +kernel)

end Coriolis.Api
