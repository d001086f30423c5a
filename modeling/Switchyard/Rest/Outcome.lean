import Switchyard.Rest.Response

/-! # Outcomes

What a handler makes of a request: a status, the members of a JSON object, a language, and an
action on the application's state `σ` for the time after the response has gone out.
-/
namespace Switchyard.Rest
set_option autoImplicit false

structure Outcome (σ : Type) where
  status : Nat
  body : Option Json.Object
  language : Option String
  afterwards : Option (σ → σ)

/-- Header values hold no control characters but the tab. -/
def isHeaderText (s : String) : Bool :=
  s.toList.all fun c => c = '\t' || (0x20 ≤ c.toNat && c.toNat ≠ 0x7f)

namespace Outcome
variable {σ : Type}

def ofStatus (status : Nat) : Outcome σ :=
  { status, body := none, language := none, afterwards := none }

/-- Adds a member to the body, which is empty text until then. -/
def field (outcome : Outcome σ) (name : String) (value : Json.Value) : Outcome σ :=
  { outcome with body := some (Json.Object.insert name value (outcome.body.getD [])) }

def ofReason (status : Nat) (reason : String) : Outcome σ :=
  (ofStatus status).field reasonField (.string reason)

def inLanguage (outcome : Outcome σ) (language : String) : Outcome σ :=
  { outcome with language := some language }

def andThen (outcome : Outcome σ) (action : σ → σ) : Outcome σ :=
  { outcome with afterwards := some action }

def reason? (outcome : Outcome σ) : Option String :=
  match outcome.body.bind (Json.Object.get? · reasonField) with
  | some (.string reason) => some reason
  | _ => none

def response (outcome : Outcome σ) : Response :=
  let body := match outcome.body with
    | some members => (Json.Value.object members).compact
    | none => ""
  let response := Response.json outcome.status body
  match outcome.language with
  | some language =>
    if isHeaderText language then response.withHeader "content-language" language else response
  | none => response

def optionText (text : Option String) : String :=
  match text with
  | some text => "Some(" ++ text ++ ")"
  | none => "None"

def bodyText (members : Json.Object) : String :=
  "\x7b" ++ ", ".intercalate (Json.describedMembers members) ++ "\x7d"

/-- The outcome as operators see it. -/
def described (outcome : Outcome σ) : String :=
  "JsonHandlerResult \x7b status: " ++ toString outcome.status
    ++ ", body: " ++ optionText (outcome.body.map bodyText)
    ++ ", content_language: " ++ optionText (outcome.language.map Quoted.text)
    ++ ", post_response_action: " ++ toString outcome.afterwards.isSome ++ " \x7d"

end Outcome
end Switchyard.Rest
