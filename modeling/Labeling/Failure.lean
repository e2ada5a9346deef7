/-!
# Failures

Why a request to the backend failed. A failure has a text of its own (`Failure.text`)
and a text for the user (`Failure.userMessage`), which for an answer of the server is
the body of that answer. Two bodies have a meaning of their own: that all items are
labeled, and that an item does not exist.
-/

namespace Labeling

/-- A payload that a request may be waiting for. -/
inductive Expected where
  | image
  | json
  deriving DecidableEq, Repr

/-- The name of a payload in messages. -/
def Expected.name : Expected → String
  | .image => "image"
  | .json => "JSON body"

/-- Why a request failed. -/
inductive Failure where
  /-- The server answered with a status other than success. -/
  | transport (status : Nat) (body : String)
  /-- The request itself failed. -/
  | http (detail : String)
  /-- JSON that cannot be read, or does not hold what is wanted. -/
  | json (detail : String)
  /-- An image that cannot be read. -/
  | image (detail : String)
  /-- The answer could not be received. -/
  | io (detail : String)
  /-- An answer of the wrong kind. -/
  | unexpectedPayload (expected : Expected)
  deriving DecidableEq, Repr

namespace Failure

/-- What the server says when there is nothing left to label. -/
def everythingLabeledBody : String := "everything has been labeled already"

/-- What the server says when an item does not exist. -/
def noSuchItemBody : String := "no such item"

/-- The text of a failure. -/
def text : Failure → String
  | .transport status body => "HTTP " ++ toString status ++ ": " ++ body
  | .http detail => "HTTP request failed: " ++ detail
  | .json detail => "JSON error: " ++ detail
  | .image detail => "Image error: " ++ detail
  | .io detail => "IO error: " ++ detail
  | .unexpectedPayload expected => "Unexpected payload: expected " ++ expected.name

/-- The text for the user: the body of a server's answer, if it has one. -/
def userMessage (f : Failure) : String :=
  match f with
  | .transport _ body => if body.isEmpty then f.text else body
  | f => f.text

/-- One text occurs in another. -/
def occursIn (part whole : List Char) : Bool :=
  match whole with
  | [] => part.isEmpty
  | c :: rest => part.isPrefixOf (c :: rest) || occursIn part rest

/-- The body of a server's answer contains a text. -/
def bodyContains (f : Failure) (part : String) : Bool :=
  match f with
  | .transport _ body => occursIn part.toList body.toList
  | _ => false

/-- There is nothing left to label. -/
def isEverythingLabeled (f : Failure) : Bool := f.bodyContains everythingLabeledBody

/-- The item does not exist. -/
def isNoSuchItem (f : Failure) : Bool := f.bodyContains noSuchItemBody

end Failure

end Labeling
