/-! Types of configs. The name of a type, as it stands in coordinates and delete files, says to
which family it belongs. -/

namespace Rollout

/-- A family of types, served by one part of the platform. -/
inductive ConfigKind
  | classicApi
  | settings
  | automation
  | bucket
deriving DecidableEq, Inhabited

def ConfigKind.display : ConfigKind → String
  | .classicApi => "classic-api"
  | .settings => "settings"
  | .automation => "automation"
  | .bucket => "bucket"

/-- How a config is found again among the objects of the platform. -/
inductive Identity
  | name
  | externalId
deriving DecidableEq

inductive ConfigType
  | classicApi (api : String)
  | settings (schemaId : String) (schemaVersion : Option String)
  | automation (resource : String)
  | bucket
deriving DecidableEq, Inhabited

namespace ConfigType

def knownApis : List String :=
  ["alerting-profile", "application-web", "auto-tag", "calculated-metrics-service",
   "conditional-naming-host", "conditional-naming-service", "custom-service-java", "dashboard",
   "maintenance-window", "management-zone", "notification", "request-attributes",
   "request-naming-service", "slo", "synthetic-location", "synthetic-monitor"]

def automationResources : List String := ["workflow", "business-calendar", "scheduling-rule"]

def bucketName : String := "bucket"

/-- The identifiers of settings schemas contain a colon, but neither begin nor end with one. -/
def isSchemaId (name : String) : Bool :=
  let s := name.toList
  s.contains ':' && s.head? != some ':' && s.getLast? != some ':'

/-- The type with a given name. The version of a schema is not part of the name. -/
def ofName? (name : String) : Option ConfigType :=
  if knownApis.contains name then some (.classicApi name)
  else if automationResources.contains name then some (.automation name)
  else if name = bucketName then some .bucket
  else if isSchemaId name then some (.settings name none)
  else none

def name : ConfigType → String
  | .classicApi api => api
  | .settings schemaId _ => schemaId
  | .automation resource => resource
  | .bucket => bucketName

instance : ToString ConfigType := ⟨name⟩

def kind : ConfigType → ConfigKind
  | .classicApi _ => .classicApi
  | .settings _ _ => .settings
  | .automation _ => .automation
  | .bucket => .bucket

/-- Objects of a classic API are known by their name, all others by their external id. -/
def identity : ConfigType → Identity
  | .classicApi _ => .name
  | _ => .externalId

/-- The type with another schema version; types without schema stay as they are. -/
def withSchemaVersion (version : Option String) : ConfigType → ConfigType
  | .settings schemaId _ => .settings schemaId version
  | t => t

end ConfigType

end Rollout
