import CallAtlas.Call.Basic
import CallAtlas.Data.SortedMap
import CallAtlas.Go.SourceFile

namespace CallAtlas.Sdk

inductive Kind where
  | rest
  | generated
  deriving Repr, DecidableEq

def Kind.text : Kind → String
  | .rest => "rest"
  | .generated => "generated"

structure Convention where
  kind : Kind
  marker : String
  deriving Repr, DecidableEq

def restMarker : String := "github.com/chnsz/golangsdk/openstack/"

def generatedMarker : String := "github.com/huaweicloud/huaweicloud-sdk-go-v3/services/"

def Convention.of (kind : Kind) (marker : Option String) : Convention :=
  ⟨kind, marker.getD (match kind with | .rest => restMarker | .generated => generatedMarker)⟩

structure Package where
  localName : String
  importPath : String
  deriving Repr, DecidableEq

structure Invocation where
  function : String
  receiver : String
  trailing : String
  deriving Repr, DecidableEq

-- How a client parameter gets its value: from the caller's argument at a position counted from one,
-- or it is known by its type.
inductive ParameterClient where
  | viaCaller (position : Nat)
  | typed (name : String)
  deriving Repr, DecidableEq

abbrev EndpointTable := SortedMap String Endpoint

end CallAtlas.Sdk
