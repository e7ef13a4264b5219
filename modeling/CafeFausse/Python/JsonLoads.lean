import CafeFausse.Python.JsonScanner

/-! # `json.loads`

The reader goes through the tokens with the arrays and objects that are still open. Numbers,
constants and the members of an object go through hooks as soon as they are read, so that the
first failure of a text is the one that is reported.
-/

namespace CafeFausse.Python

variable {ε : Type}

/-- The arguments `object_pairs_hook`, `parse_int`, `parse_float` and `parse_constant`. -/
structure Hooks (ε : Type) where
  objectPairsHook : Payload → Except ε Payload
  parseInt : Literal → Except ε Json
  parseFloat : Literal → Except ε Json
  parseConstant : Except ε Json

/-- Why a text is not read. -/
inductive LoadsError (ε : Type) where
  | decodeError
  | recursionError
  | raised (e : ε)
  deriving DecidableEq

/-- What a hook returns or raises. -/
def called {α : Type} : Except ε α → Except (LoadsError ε) α
  | .ok a => .ok a
  | .error e => .error (.raised e)

/-- An array or an object that waits for a value. -/
inductive Frame where
  | array (values : List Json)
  | member (members : Payload) (name : Text)

/-- Where the reader is. -/
inductive Reader where
  | value (frames : List Frame)
  | firstValue (frames : List Frame)
  | firstName (frames : List Frame)
  | name (members : Payload) (frames : List Frame)
  | colon (members : Payload) (name : Text) (frames : List Frame)
  | inArray (values : List Json) (frames : List Frame)
  | inObject (members : Payload) (frames : List Frame)
  | complete (value : Json)

namespace Reader

variable (hooks : Hooks ε) (maxDepth : ℕ)

/-- After a value. -/
def accept (v : Json) : List Frame → Reader
  | [] => complete v
  | .array values :: frames => inArray (values ++ [v]) frames
  | .member members n :: frames => inObject (members ++ [(n, v)]) frames

/-- After an object. -/
def close (members : Payload) (frames : List Frame) : Except (LoadsError ε) Reader := do
  let members ← called (hooks.objectPairsHook members)
  return accept (.object members) frames

/-- `parse_int` or `parse_float`. -/
def convert (literal : Literal) : Except ε Json :=
  if literal.isInteger then hooks.parseInt literal else hooks.parseFloat literal

/-- One more level of nesting. -/
def nest (frames : List Frame) (r : Reader) : Except (LoadsError ε) Reader :=
  if frames.length < maxDepth then .ok r else .error .recursionError

/-- The token with which a value begins. -/
def beginValue (frames : List Frame) : Token → Except (LoadsError ε) Reader
  | .beginObject => nest maxDepth frames (firstName frames)
  | .beginArray => nest maxDepth frames (firstValue frames)
  | .null => .ok (accept .null frames)
  | .boolean b => .ok (accept (.boolean b) frames)
  | .string t => .ok (accept (.string t) frames)
  | .number literal => do
    let v ← called (convert hooks literal)
    return accept v frames
  | .constant => do
    let v ← called hooks.parseConstant
    return accept v frames
  | _ => .error .decodeError

/-- One token. -/
def step : Reader → Token → Except (LoadsError ε) Reader
  | value frames, token => beginValue hooks maxDepth frames token
  | firstValue frames, .endArray => .ok (accept (.array []) frames)
  | firstValue frames, token => beginValue hooks maxDepth (.array [] :: frames) token
  | firstName frames, .endObject => close hooks [] frames
  | firstName frames, .string n => .ok (colon [] n frames)
  | name members frames, .string n => .ok (colon members n frames)
  | colon members n frames, .colon => .ok (value (.member members n :: frames))
  | inArray values frames, .comma => .ok (value (.array values :: frames))
  | inArray values frames, .endArray => .ok (accept (.array values) frames)
  | inObject members frames, .comma => .ok (name members frames)
  | inObject members frames, .endObject => close hooks members frames
  | _, _ => .error .decodeError

/-- All tokens, after which nothing may be open. -/
def run : Reader → List Token → Except (LoadsError ε) Json
  | complete v, [] => .ok v
  | _, [] => .error .decodeError
  | r, token :: tokens => do
    let r ← step hooks maxDepth r token
    run r tokens

variable {hooks maxDepth}

theorem run_cons (r : Reader) (token : Token) (tokens : List Token) :
    run hooks maxDepth r (token :: tokens) =
      (step hooks maxDepth r token).bind fun r => run hooks maxDepth r tokens := by
  cases r <;> rfl

/-- Where an array may end, its first value begins as any other. -/
theorem step_firstValue (frames : List Frame) {token : Token} (h : token ≠ .endArray) :
    step hooks maxDepth (firstValue frames) token =
      beginValue hooks maxDepth (.array [] :: frames) token := by
  cases token with
  | endArray => exact absurd rfl h
  | _ => rfl

end Reader

/-- `json.loads(t, …)`. A byte order mark at the start is no token. -/
def loads (hooks : Hooks ε) (maxDepth : ℕ) (t : Text) : Except (LoadsError ε) Json :=
  Reader.run hooks maxDepth (.value []) (scan t)

end CafeFausse.Python
