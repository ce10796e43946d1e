import CallAtlas.Path
import CallAtlas.Text.Pattern

namespace CallAtlas.Sdk

open CallAtlas.Text

structure FixedUrl where
  fileEnd : String
  functions : List String
  url : String

def fixedUrls : List FixedUrl :=
  [⟨"dns/v2/ptrrecords/urls.go", ["baseURL", "resourceURL"],
    "reverse/floatingips/\x7bregion\x7d:\x7bfloatingip_id\x7d"⟩]

def fixedUrl? (file : Path) (function : String) : Option String :=
  let text := replace file.text "\\" "/"
  (fixedUrls.find? fun f => endsWith text f.fileEnd && f.functions.contains function).map (·.url)

-- A helper and the client that stands for what it chooses.
structure Chooser where
  function : String
  client : String

def choosers : List Chooser := [⟨"chooseDNSClientbyZoneID", "DnsV2Client"⟩]

def Chooser.pattern (c : Chooser) (receiver : String) : Pattern :=
  [.edge, word receiver, .edge, .many Pattern.notNewline, word ":=", .one isBlank,
   word c.function, .edge]

def chosenClient? (receiver source : String) : Option String :=
  (choosers.find? fun c => (c.pattern receiver).occurs source).map (·.client)

end CallAtlas.Sdk
