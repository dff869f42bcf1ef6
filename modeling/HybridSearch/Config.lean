import HybridSearch.Json.Shape
import HybridSearch.Query
import HybridSearch.Retry

/-!
# Configuration

The settings of a handle that do not belong to the schema.
-/
namespace HybridSearch

/-- The settings of a handle. -/
structure Config where
  engineUrl : Option String := none
  indexPrefix : Option String := none
  /-- How many documents the queries of the handle return at most. -/
  defaultLimit : Nat := HybridSearch.defaultLimit
  distanceAlias : String := defaultAlias
  connectAttempts : Nat := 5
  deriving DecidableEq

namespace Config

def nameSpace (c : Config) : String :=
  c.indexPrefix.getD ""

def indexName (c : Config) (name : String) : String :=
  c.nameSpace ++ name

def connectRetry (c : Config) : RetryPolicy :=
  RetryPolicy.connect.withAttempts c.connectAttempts

open Json Json.Reader

def shape : Shape Config where
  name := "SearchConfig"
  slots :=
    [ .of "redis_url" false (optional string) fun v c => { c with engineUrl := v },
      .of "index_prefix" false (optional string) fun v c => { c with indexPrefix := v },
      .of "default_limit" false natural fun v c => { c with defaultLimit := v },
      .of "distance_alias" false string fun v c => { c with distanceAlias := v },
      .of "connect_attempts" false natural fun v c => { c with connectAttempts := v } ]
  start := {}

end Config
end HybridSearch
