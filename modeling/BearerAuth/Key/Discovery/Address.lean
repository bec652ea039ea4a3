import BearerAuth.Text.Basic

namespace BearerAuth.DiscoveryAddress

def document : List Char := "openid-configuration".toList

def wellKnown : List Char := "/.well-known".toList

def ending : List Char := wellKnown ++ '/' :: document

def endsWith (cs tail : List Char) : Bool := tail.isSuffixOf cs

/-- The text before its last slash, if there is one. -/
def beforeLastSlash? (cs : List Char) : Option (List Char) :=
  match cs.reverse.dropWhile (· != '/') with
  | [] => none
  | _ :: head => some head.reverse

/-- The discovery address of an address without surrounding white space. -/
def ofChars (cs : List Char) : List Char :=
  if endsWith cs ending then cs
  else if endsWith cs (wellKnown ++ ['/']) then cs ++ document
  else
    let base := Text.dropEndWhile (· == '/') cs
    if endsWith base wellKnown then base ++ '/' :: document
    else
      match beforeLastSlash? base with
      | some head =>
        if endsWith head wellKnown then head ++ '/' :: document else base ++ ending
      | none => base ++ ending

def ofText (uri : String) : String := String.ofList (ofChars (Text.trimChars uri.toList))

end BearerAuth.DiscoveryAddress
