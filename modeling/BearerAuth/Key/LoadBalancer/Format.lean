import BearerAuth.Error

namespace BearerAuth

/-- The formats of the regions that have one of their own; the first entry of a region counts. -/
structure KeyAddressFormats where
  formats : List (String × String)
deriving DecidableEq, Repr

namespace KeyAddressFormats

/-- The format of a region without one of its own. -/
def common : String := "https://public-keys.auth.elb.%s.amazonaws.com/%s"

def initial : KeyAddressFormats where
  formats := [
    ("us-gov-west-1",
      "https://s3-us-gov-west-1.amazonaws.com/aws-elb-public-keys-prod-us-gov-west-1/%s"),
    ("us-gov-east-1",
      "https://s3-us-gov-east-1.amazonaws.com/aws-elb-public-keys-prod-us-gov-east-1/%s")]

def register (f : KeyAddressFormats) (region format : String) : KeyAddressFormats :=
  ⟨(region, format) :: f.formats⟩

def formatOf (f : KeyAddressFormats) (region : String) : String :=
  (f.formats.lookup region).getD common

/-- The parts of a format between its placeholders, read from left to right. -/
def parts : List Char → List (List Char)
  | '%' :: 's' :: rest => [] :: parts rest
  | c :: rest =>
    match parts rest with
    | first :: others => (c :: first) :: others
    | [] => [[c]]
  | [] => [[]]

/-- Puts a text into the first placeholder of a format. -/
def fillFirst (value : List Char) : List Char → List Char
  | '%' :: 's' :: rest => value ++ rest
  | c :: rest => c :: fillFirst value rest
  | [] => []

def address (f : KeyAddressFormats) (region keyId : String) : Except KeyError String :=
  let format := (f.formatOf region).toList
  match (parts format).length - 1 with
  | 0 =>
    .error (.configuration
      (s!"Key URL Format for region {region} fails to include at least one %s for injecting " ++
        "the Key ID to lookup"))
  | 1 => .ok (String.ofList (fillFirst keyId.toList format))
  | 2 => .ok (String.ofList (fillFirst keyId.toList (fillFirst region.toList format)))
  | _ =>
    .error (.configuration s!"Key URL Format for region {region} contains too many %s specifiers")

end KeyAddressFormats

end BearerAuth
