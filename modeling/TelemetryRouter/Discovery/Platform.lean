import TelemetryRouter.Discovery.Address
import TelemetryRouter.Discovery.EndpointsObject

/-!
# Platforms

Discovery asks for things that are decided elsewhere: which addresses a hostname has, whether there is access to a cluster, and which
endpoints the cluster keeps for a service. A platform is anything that decides them. Nothing is assumed of one: it may take its time, never
reply, or reply something else each time.
-/

namespace TelemetryRouter

/-- What comes of a request: after how many milliseconds, whether it never comes, and what it says or why there is nothing to say. -/
structure Reply (β : Type) where
  delay : Nat
  hangs : Bool
  result : Except String β

/-- Access to a cluster: what comes of the queries for a service in a namespace, one after another. A service may not exist. -/
abbrev ClusterClient : Type := (service space : String) → List (Reply (Option EndpointsObject))

/-- A name service, which replies to the lookups of a hostname one after another, and ways to access a cluster: by what the file at a path
says, or without a file. -/
structure Platform where
  lookup : String → List (Reply (List IpAddress))
  Kubeconfig : Type
  ClientConfig : Type
  readKubeconfig : String → Except String Kubeconfig
  clientConfig : Kubeconfig → Except String ClientConfig
  client : ClientConfig → Except String ClusterClient
  defaultClient : Except String ClusterClient

end TelemetryRouter
