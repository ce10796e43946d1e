import CallAtlas.Http
import CallAtlas.Service

namespace CallAtlas

open CallAtlas.Text

structure Endpoint where
  url : String
  method : Method
  deriving Repr, DecidableEq

inductive Origin where
  | sdk
  | tagHelper
  | comment
  deriving Repr, DecidableEq

structure Call where
  url : String
  method : Method
  operationId : String := ""
  service : Service
  sdkPath : String := ""
  origin : Origin := .sdk
  deriving Repr, DecidableEq

-- Drops a query, except one that begins the URL.
def stripQuery (url : String) : String :=
  let lead := url.toList.takeWhile (· != '?')
  if lead.isEmpty then url else String.ofList lead

namespace Call

def ofEndpoint (e : Endpoint) (operationId : String) (service : Service) (sdkPath : String) :
    Call :=
  { url := stripQuery e.url, method := e.method, operationId, service, sdkPath, origin := .sdk }

-- What two reports of one call have in common: URL and service name in lower case, and the method.
def identity (c : Call) : String × String × String :=
  (toLower c.url, c.method.text, toLower c.service.name)

def trimSlashes (s : String) : String := trimMatches (· == '/') s

-- The request path: version, project, resource base and URL, those of them that are not empty. The
-- URL of an annotation is complete already.
def fullPath (c : Call) : String :=
  if c.origin = .comment then c.url
  else
    let project := if c.service.includesProjectId then "\x7bproject_id\x7d" else ""
    let parts := [c.service.version, project, c.service.resourceBase, c.url].map trimSlashes
    "/" ++ join "/" (parts.filter (· != ""))

end Call

end CallAtlas
