import DocumentMapper.Error
import DocumentMapper.Json.Basic
import DocumentMapper.Text.Blank

/-!
# Settings

What a client has to know to reach a database: a secret that is sent with every
query, and perhaps an endpoint in place of the usual one.
-/

namespace DocumentMapper

structure Settings where
  secret : String
  endpoint : Option String
deriving DecidableEq

namespace Settings

def empty : Settings :=
  { secret := "", endpoint := none }

/-- A secret has to hold something other than space. -/
def validate (settings : Settings) : Except SettingsFault Unit :=
  if Text.isBlank settings.secret then
    .error .noSecret
  else
    .ok ()

def ofEnvironment (lookup? : String -> Option String) :
    Except SettingsFault Settings := do
  let settings : Settings :=
    { secret := (lookup? secretVariable).getD ""
      endpoint := lookup? endpointVariable }
  settings.validate
  pure settings

def ofJson? (json : Json) : Option Settings := do
  match (<- json.fields? ["secret", "endpoint"]) with
  | [secret, endpoint] =>
      some
        { secret := (<- Json.required? Json.string? secret)
          endpoint := (<- Json.optional? Json.string? endpoint) }
  | _ => none

def toJson (settings : Settings) : Json :=
  Json.ofMembers
    [("secret", .string settings.secret),
      ("endpoint", (settings.endpoint.map Json.string).getD .null)]

end Settings
end DocumentMapper
