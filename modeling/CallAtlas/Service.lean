namespace CallAtlas

structure Service where
  name : String := ""
  version : String := ""
  resourceBase : String := ""
  withoutProjectId : Bool := false
  product : String := ""
  deriving Repr, DecidableEq, Inhabited

namespace Service

def named (name : String) : Service := { name }

-- The service of calls whose client could not be traced.
def unknown : Service := named "unknown"

def isUnknown (s : Service) : Bool := s.name == "unknown"

def includesProjectId (s : Service) : Bool := !s.withoutProjectId

end Service

end CallAtlas
