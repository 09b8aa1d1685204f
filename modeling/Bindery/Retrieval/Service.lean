import Bindery.Retrieval.Request
import Bindery.Schema.Decode
import Bindery.Text.Blank

/-!
# Retrieval of a schema

A service answers a request, or it cannot be reached. An answer is taken when it tells success and
is not blank.
-/

namespace Bindery.Retrieval

/-! ### Status codes -/

/-- The names of status codes. -/
def statusNames : List (Nat × String) :=
  [(100, "Continue"), (101, "Switching Protocols"), (102, "Processing"), (103, "Early Hints"),
    (200, "OK"), (201, "Created"), (202, "Accepted"), (203, "Non-Authoritative Information"),
    (204, "No Content"), (205, "Reset Content"), (206, "Partial Content"), (207, "Multi-Status"),
    (208, "Already Reported"), (226, "IM Used"),
    (300, "Multiple Choices"), (301, "Moved Permanently"), (302, "Found"), (303, "See Other"),
    (304, "Not Modified"), (305, "Use Proxy"), (307, "Temporary Redirect"),
    (308, "Permanent Redirect"),
    (400, "Bad Request"), (401, "Unauthorized"), (402, "Payment Required"), (403, "Forbidden"),
    (404, "Not Found"), (405, "Method Not Allowed"), (406, "Not Acceptable"),
    (407, "Proxy Authentication Required"), (408, "Request Timeout"), (409, "Conflict"),
    (410, "Gone"), (411, "Length Required"), (412, "Precondition Failed"),
    (413, "Request Entity Too Large"), (414, "Request-URI Too Long"),
    (415, "Unsupported Media Type"), (416, "Requested Range Not Satisfiable"),
    (417, "Expectation Failed"), (418, "I'm a teapot"), (421, "Misdirected Request"),
    (422, "Unprocessable Entity"), (423, "Locked"), (424, "Failed Dependency"),
    (425, "Too Early"), (426, "Upgrade Required"), (428, "Precondition Required"),
    (429, "Too Many Requests"), (431, "Request Header Fields Too Large"),
    (451, "Unavailable For Legal Reasons"),
    (500, "Internal Server Error"), (501, "Not Implemented"), (502, "Bad Gateway"),
    (503, "Service Unavailable"), (504, "Gateway Timeout"), (505, "HTTP Version Not Supported"),
    (506, "Variant Also Negotiates"), (507, "Insufficient Storage"), (508, "Loop Detected"),
    (510, "Not Extended"), (511, "Network Authentication Required")]

/-- The name of a status code; an unknown one has none. -/
def statusName (code : Nat) : String :=
  (statusNames.lookup code).getD ""

/-- Does the status code tell success? -/
def isSuccess (code : Nat) : Bool :=
  200 ≤ code && code < 300

/-! ### Answers -/

/-- What a service answers. -/
structure Answer where
  /-- The status code. -/
  status : Nat
  /-- The text. -/
  text : String
  deriving DecidableEq, Repr

/-- What answers requests; a request that is not answered has a reason. -/
abbrev Service := Request → Except String Answer

/-- The service that no request reaches. -/
def Service.none (reason : String) : Service :=
  fun _ => .error reason

/-- The text of an answer that tells success. -/
def Answer.content (a : Answer) : Except Refusal String :=
  if !isSuccess a.status then .error (.badStatus a.status (statusName a.status) a.text)
  else if Text.isBlankText a.text then .error (.emptyResponse a.status)
  else .ok a.text

/-- The text that a service answers to a request. -/
def Service.content (s : Service) (r : Request) : Except Refusal String :=
  match s r with
  | .error reason => .error (.unreachable reason)
  | .ok a => a.content

/-- What was retrieved: the requests that were made, and what came of them. -/
structure Retrieved (α : Type) where
  /-- The requests. -/
  requests : List Request
  /-- The outcome. -/
  outcome : Except Refusal α

/-- The retrieval of the text of a schema. -/
def Service.retrieve (s : Service) (url methodName : String) (headers : Keyed String) :
    Retrieved String :=
  match schemaRequest url methodName headers with
  | .error e => ⟨[], .error e⟩
  | .ok r => ⟨[r], s.content r⟩

/-- The retrieval of a schema. -/
def Service.retrieveSchema (s : Service) (url methodName : String) (headers : Keyed String) :
    Retrieved Schema :=
  let r := s.retrieve url methodName headers
  ⟨r.requests, r.outcome.bind Schema.ofText⟩

end Bindery.Retrieval
