import DocumentMapper.Client.Basic

/-!
# Scripted clients

A client that keeps the expressions it is sent and answers them from a script,
with null when the script has ended.
-/

namespace DocumentMapper

structure Script where
  replies : List (Except Error Value)
  /-- What has been sent, in order. -/
  sent : List Expr

def Script.query (expr : Expr) : Session Script Value :=
  fun script =>
    let sent := script.sent ++ [expr]
    match script.replies with
    | [] => .ok .null { replies := [], sent := sent }
    | .ok value :: rest => .ok value { replies := rest, sent := sent }
    | .error error :: rest => .error error { replies := rest, sent := sent }

def Client.scripted : Client Script :=
  { query := Script.query }

end DocumentMapper
