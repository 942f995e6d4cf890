import MeshLens.Entries
import MeshLens.Query.Basic
import MeshLens.Text.LowerCase

/-!
# The vocabulary of queries

The words that an expression may begin with: operands, which are compared with a value, and flags,
which stand alone. Both tables hold the words in lower case with their aliases.
-/

namespace MeshLens.Query

/-- How an operand treats its operator and value. -/
inductive OperandKind
  | text
  | numeric
  /-- A number from 1 to 100. -/
  | rank
  /-- Any of the names of a node. -/
  | name
  /-- A node type, by any of its aliases. -/
  | nodeType
  deriving DecidableEq, Repr

/-- An operand: the kind of element it is about and the attribute it looks at. -/
structure Operand where
  target : Kind
  key : Text
  kind : OperandKind := .text
  /-- The display setting that it only makes sense with. -/
  request : Option OptionRequest := none
  deriving DecidableEq, Repr

/-- A flag: the kind of element it is about, and the alternatives that it and its negation stand
for. -/
structure Flag where
  target : Kind
  positive : List Criterion
  negative : List Criterion
  request : Option OptionRequest := none
  deriving DecidableEq, Repr

/-! ## Requests -/

/-- The request of the rank. -/
def rankRequest : OptionRequest where
  option := Switch.showRank.name
  label := "\"Rank\" display option"

/-- The request of what concerns security. -/
def securityRequest : OptionRequest where
  option := Switch.showSecurity.name
  label := "\"Security\" display option"

/-- The request of idle nodes. -/
def idleRequest : OptionRequest where
  option := Switch.showIdleNodes.name
  label := "\"Idle nodes\" display option"

/-- The request of response times. -/
def responseTimeRequest : OptionRequest where
  option := OptionRequest.edgeLabelsOption
  label := "[P95] \"Response Time\" edge labels"
  edgeLabels := ["responseTime", "rtP95"]

/-- The request of throughput. -/
def throughputRequest : OptionRequest where
  option := OptionRequest.edgeLabelsOption
  label := "[Request] \"Throughput\" edge labels"
  edgeLabels := ["throughput", "throughputRequest"]

/-! ## Operands -/

/-- An operand about nodes. -/
def nodeOperand (key : Text) (kind : OperandKind := .text)
    (request : Option OptionRequest := none) : Operand :=
  { target := .node, key, kind, request }

/-- An operand about edges. -/
def edgeOperand (key : Text) (kind : OperandKind := .text)
    (request : Option OptionRequest := none) : Operand :=
  { target := .edge, key, kind, request }

/-- The operands about nodes by their words. -/
def nodeOperands : Entries Operand := [
  ("app", nodeOperand "app"),
  ("cluster", nodeOperand "cluster"),
  ("grpcin", nodeOperand "grpcIn" .numeric),
  ("grpcout", nodeOperand "grpcOut" .numeric),
  ("httpin", nodeOperand "httpIn" .numeric),
  ("httpout", nodeOperand "httpOut" .numeric),
  ("name", nodeOperand "aggregateValue" .name),
  ("node", nodeOperand "nodeType" .nodeType),
  ("ns", nodeOperand "namespace"),
  ("namespace", nodeOperand "namespace"),
  ("op", nodeOperand "aggregateValue"),
  ("operation", nodeOperand "aggregateValue"),
  ("rank", nodeOperand "rank" .rank rankRequest),
  ("svc", nodeOperand "service"),
  ("service", nodeOperand "service"),
  ("tcpin", nodeOperand "tcpIn" .numeric),
  ("tcpout", nodeOperand "tcpOut" .numeric),
  ("version", nodeOperand "version"),
  ("wl", nodeOperand "workload"),
  ("workload", nodeOperand "workload")]

/-- The operands about edges by their words. -/
def edgeOperands : Entries Operand := [
  ("destprincipal", edgeOperand "destPrincipal" .text securityRequest),
  ("grpc", edgeOperand "grpc" .numeric),
  ("grpcerr", edgeOperand "grpcErr" .numeric),
  ("%grpcerr", edgeOperand "grpcPercentErr" .numeric),
  ("%grpcerror", edgeOperand "grpcPercentErr" .numeric),
  ("%grpctraffic", edgeOperand "grpcPercentReq" .numeric),
  ("http", edgeOperand "http" .numeric),
  ("%httperr", edgeOperand "httpPercentErr" .numeric),
  ("%httperror", edgeOperand "httpPercentErr" .numeric),
  ("%httptraffic", edgeOperand "httpPercentReq" .numeric),
  ("httptraffic", edgeOperand "httpPercentReq" .numeric),
  ("protocol", edgeOperand "protocol"),
  ("rt", edgeOperand "responseTime" .numeric responseTimeRequest),
  ("responsetime", edgeOperand "responseTime" .numeric responseTimeRequest),
  ("sourceprincipal", edgeOperand "sourcePrincipal" .text securityRequest),
  ("tcp", edgeOperand "tcp" .numeric),
  ("throughput", edgeOperand "throughput" .numeric throughputRequest)]

/-- The operands by their words. -/
def operands : Entries Operand :=
  nodeOperands ++ edgeOperands

/-- The attributes that hold a name of a node. -/
def nameKeys : List Text :=
  ["aggregateValue", "app", "service", "workload"]

/-- The node types by their aliases. -/
def nodeTypes : Entries Text := [
  ("app", "app"),
  ("op", "aggregate"),
  ("operation", "aggregate"),
  ("aggregate", "aggregate"),
  ("svc", "service"),
  ("service", "service"),
  ("wl", "workload"),
  ("workload", "workload"),
  ("unknown", "unknown")]

/-! ## Flags -/

/-- A flag that is an attribute counting as true, its negation the attribute missing. -/
def attributeFlag (target : Kind) (key : Text) (request : Option OptionRequest := none) : Flag :=
  { target, positive := [.truthy key], negative := [.undefined key], request }

/-- Nodes in good health; the negation asks for one of the two kinds of bad health. -/
def healthyFlag : Flag where
  target := .node
  positive := [.text "healthStatus" .eq "Healthy"]
  negative := [.text "healthStatus" .eq "Failure", .text "healthStatus" .eq "Degraded"]

/-- Nodes with a sidecar: the attribute marks those without one. -/
def sidecarFlag : Flag where
  target := .node
  positive := [.undefined "hasMissingSC"]
  negative := [.truthy "hasMissingSC"]

/-- Edges with some traffic under mutual TLS. -/
def mutualTlsFlag : Flag where
  target := .edge
  positive := [.number "isMTLS" .gt ['0']]
  negative := [.number "isMTLS" .le ['0']]
  request := securityRequest

/-- The flags by their words. -/
def flags : Entries Flag := [
  ("cb", attributeFlag .node "hasCB"),
  ("circuitbreaker", attributeFlag .node "hasCB"),
  ("dead", attributeFlag .node "isDead"),
  ("fi", attributeFlag .node "hasFaultInjection"),
  ("faultinjection", attributeFlag .node "hasFaultInjection"),
  ("inaccessible", attributeFlag .node "isInaccessible"),
  ("healthy", healthyFlag),
  ("idle", attributeFlag .node "isIdle" idleRequest),
  ("mirroring", attributeFlag .node "hasMirroring"),
  ("outside", attributeFlag .node "isOutside"),
  ("outsider", attributeFlag .node "isOutside"),
  ("rr", attributeFlag .node "hasRequestRouting"),
  ("requestrouting", attributeFlag .node "hasRequestRouting"),
  ("rto", attributeFlag .node "hasRequestTimeout"),
  ("requesttimeout", attributeFlag .node "hasRequestTimeout"),
  ("se", attributeFlag .node "isServiceEntry"),
  ("serviceentry", attributeFlag .node "isServiceEntry"),
  ("sc", sidecarFlag),
  ("sidecar", sidecarFlag),
  ("tcpts", attributeFlag .node "hasTCPTrafficShifting"),
  ("tcptrafficshifting", attributeFlag .node "hasTCPTrafficShifting"),
  ("ts", attributeFlag .node "hasTrafficShifting"),
  ("trafficshifting", attributeFlag .node "hasTrafficShifting"),
  ("trafficsource", attributeFlag .node "isRoot"),
  ("root", attributeFlag .node "isRoot"),
  ("vs", attributeFlag .node "hasVS"),
  ("virtualservice", attributeFlag .node "hasVS"),
  ("we", attributeFlag .node "hasWorkloadEntry"),
  ("workloadentry", attributeFlag .node "hasWorkloadEntry"),
  ("mtls", mutualTlsFlag),
  ("traffic", attributeFlag .edge "hasTraffic")]

/-- Looks a word up in any case. -/
def lookUp? {α : Type} (table : Entries α) (word : Text) : Option α :=
  table.get? (Text.lower word)

/-! ## Completion -/

/-- The words offered for completion: aliases are left out. -/
def completions : List Text := List.map Text.ofString [
  "%grpcerr", "%grpctraffic", "%httperr", "%httptraffic", "app", "circuitbreaker", "cluster",
  "destprincipal", "faultinjection", "grpc", "grpcerr", "grpcin", "grpcout", "healthy", "http",
  "httpin", "httpout", "idle", "mirroring", "mtls", "name", "namespace", "node", "operation",
  "outside", "protocol", "rank", "requestrouting", "requesttimeout", "responsetime", "service",
  "serviceentry", "sidecar", "sourceprincipal", "tcp", "tcptrafficshifting", "throughput",
  "traffic", "trafficshifting", "trafficsource", "version", "virtualservice", "tcpin", "tcpout",
  "workload", "workloadentry"]

/-- The edge label modes of a shown graph, in alphabetical order. -/
def edgeLabelModes : List Text := [
  "avg", "responseTime", "rtP50", "rtP95", "rtP99", "throughput", "throughputRequest",
  "throughputResponse", "trafficDistribution", "trafficRate"]

end MeshLens.Query
