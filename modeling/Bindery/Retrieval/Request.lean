import Bindery.Keyed
import Bindery.Refusal
import Bindery.Text.Casing
import Bindery.Text.Range

/-!
# Requests

The query that asks a service for its schema, descriptions included, and the request that sends it: as
a parameter of the address or in a JSON body.
-/

namespace Bindery.Retrieval

open Bindery.Text

/-! ### The introspection query -/

/-- The lines of a selection below a head. -/
def selection (head : String) (lines : List String) : List String :=
  [head ++ " \x7b"] ++ lines.map ("  " ++ ·) ++ ["\x7d"]

/-- The lines that ask for a type reference with a number of wrappers. -/
def referenceLines : Nat → List String
  | 0 => ["kind", "name"]
  | depth + 1 => ["kind", "name"] ++ selection "ofType" (referenceLines depth)

/-- The lines of the query. -/
def introspectionLines : List String :=
  selection "query IntrospectionQuery"
    (selection "__schema"
      (selection "queryType" ["name"] ++ selection "mutationType" ["name"] ++
        selection "subscriptionType" ["name"] ++ selection "types" ["...FullType"] ++
        selection "directives"
          (["name", "description", "locations"] ++ selection "args" ["...InputValue"]))) ++
  [""] ++
  selection "fragment FullType on __Type"
    (["kind", "name", "description"] ++
      selection "fields(includeDeprecated: true)"
        (["name", "description"] ++ selection "args" ["...InputValue"] ++
          selection "type" ["...TypeRef"] ++ ["isDeprecated", "deprecationReason"]) ++
      selection "inputFields" ["...InputValue"] ++ selection "interfaces" ["...TypeRef"] ++
      selection "enumValues(includeDeprecated: true)"
        ["name", "description", "isDeprecated", "deprecationReason"] ++
      selection "possibleTypes" ["...TypeRef"]) ++
  [""] ++
  selection "fragment InputValue on __InputValue"
    (["name", "description"] ++ selection "type" ["...TypeRef"] ++ ["defaultValue"]) ++
  [""] ++
  selection "fragment TypeRef on __Type" (referenceLines 9)

/-- The query. -/
def introspectionQuery : String :=
  "\n".intercalate introspectionLines

/-! ### Requests -/

/-- How a request is sent. -/
inductive Method where
  /-- With the query in the address. -/
  | get
  /-- With the query in the body. -/
  | post
  deriving DecidableEq, Repr

/-- The methods by their names. -/
def Method.names : List (String × Method) :=
  [("GET", .get), ("POST", .post)]

/-- The method of a name in whatever case. -/
def Method.ofText? (s : String) : Option Method :=
  Method.names.lookup (upper s)

/-- The name of a method. -/
def Method.name : Method → String
  | .get => "GET"
  | .post => "POST"

/-- A request. -/
structure Request where
  /-- How it is sent. -/
  method : Method
  /-- The address without parameters. -/
  address : String
  /-- The parameters of the address. -/
  parameters : List (String × String)
  /-- The headers. -/
  headers : List (String × String)
  /-- The members of the JSON body, if there is one. -/
  body : Option (List (String × String))
  deriving DecidableEq, Repr

/-- The value of a header: all headers whose names agree but for case count. -/
def Request.header? (r : Request) (name : String) : Option String :=
  match (r.headers.filter fun h => lower h.1 == lower name).map Prod.snd with
  | [] => none
  | values => some (", ".intercalate values)

/-! ### Parameters of an address -/

/-- The value of a hexadecimal digit. -/
def hexValue? (c : Char) : Option Nat :=
  if c.isDigit then some (c.toNat - 48)
  else if 'a' ≤ c && c ≤ 'f' then some (c.toNat - 87)
  else if 'A' ≤ c && c ≤ 'F' then some (c.toNat - 55)
  else none

/-- The bytes for which the characters of a parameter stand. -/
def parameterBytes : List Char → List UInt8
  | [] => []
  | '+' :: r => 32 :: parameterBytes r
  | '%' :: a :: b :: r =>
    match hexValue? a, hexValue? b with
    | some x, some y => UInt8.ofNat (16 * x + y) :: parameterBytes r
    | _, _ => 37 :: parameterBytes (a :: b :: r)
  | c :: r => (String.singleton c).toUTF8.toList ++ parameterBytes r

/-- The text for which a part of a parameter stands. -/
def parameterText (cs : List Char) : String :=
  let bytes : ByteArray := ⟨(parameterBytes cs).toArray⟩
  (String.fromUTF8? bytes).getD (String.ofList cs)

/-- The name and the value of a parameter. -/
def parameterOf (s : String) : String × String :=
  let cs := s.toList
  let name := cs.takeWhile (· != '=')
  (parameterText name, parameterText ((cs.drop name.length).drop 1))

/-- The address and the parameters of a text. -/
def splitAddress (url : String) : String × List (String × String) :=
  let address := url.toList.takeWhile (· != '?')
  let query := ((url.toList.drop address.length).drop 1).takeWhile (· != '#')
  let parts := ((String.ofList query).split (· == '&')).toList.map fun s => s.toString
  (String.ofList address, (parts.filter fun s => !s.isEmpty).map parameterOf)

/-! ### The request for a schema -/

/-- The headers of a request: those given replace the first one of their very name. -/
def requestHeaders (method : Method) (given : Keyed String) : List (String × String) :=
  let headers := (given.entries.foldl (fun m e => m.put e.1 e.2)
    (Keyed.empty.put "Accept" "application/json")).entries
  let hasType := headers.any fun h => lower h.1 == "content-type"
  if method == .post && !hasType then headers ++ [("Content-Type", "application/json")] else headers

/-- The headers, if all of them are plain. -/
def checkHeaders (headers : List (String × String)) : Except Refusal Unit :=
  match (headers.flatMap fun h => [h.1, h.2]).find? fun s => !s.toList.all isAscii with
  | some text => .error (.notPlain text)
  | none => .ok ()

/-- The request for the schema of a service. -/
def schemaRequest (url methodName : String) (given : Keyed String) : Except Refusal Request :=
  match Method.ofText? methodName with
  | none => .error (.badMethod methodName)
  | some method =>
    let (address, own) := splitAddress url
    let headers := requestHeaders method given
    let query := [("query", introspectionQuery)]
    match checkHeaders headers, method with
    | .error e, _ => .error e
    | .ok _, .get => .ok ⟨.get, address, query, headers, none⟩
    | .ok _, .post => .ok ⟨.post, address, own, headers, some query⟩

end Bindery.Retrieval
