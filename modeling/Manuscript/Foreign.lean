import Manuscript.Document.Json
import Manuscript.Workspace
/-!
# Foreign callers

The library for callers who pass texts as bytes that end at the first NUL, or pass nothing at
all. What fails gives a message without NUL, and a text that holds one is not given back, because
the caller would see only a part of it.
-/

namespace Manuscript.Foreign

open Archive (Codec)

variable [Codec]

abbrev Argument := Option Bytes

abbrev Answer (α : Type) := Except String α

def version : String := "0.1.0"

def beforeNul (memory : Bytes) : Bytes :=
  memory.takeWhile (· != 0)

def required (title : String) : Argument → Answer String
  | none => .error (title ++ " cannot be null")
  | some bs =>
    match Utf8.decode (beforeNul bs) with
    | .ok text => .ok text
    | .error _ => .error ("Invalid UTF-8 " ++ Text.lowercase title)

def optional (title : String) : Argument → Answer (Option String)
  | none => .ok none
  | some bs => do .ok (some (← required title (some bs)))

def clean (message : String) : String :=
  String.ofList (message.toList.map fun c => if c = '\x00' then ' ' else c)

def answer {α : Type} : Except Error α → Answer α
  | .ok a => .ok a
  | .error error => .error (clean error.message)

def answerText (text : String) : Answer String :=
  let before := text.toList.takeWhile (· != '\x00')
  if before.length < text.toList.length then
    .error ("result contains a NUL byte at offset " ++ Text.showNat (Utf8.size before))
  else .ok text

def answerFound (found : Except Error String) : Answer String := do
  answerText (← answer found)

def convert (text : Argument) : Answer Bytes := do
  let text ← required "Text" text
  answer (Synthesizer.reference.convert text)

def convertWithStyle (text style : Argument) : Answer Bytes := do
  let text ← required "Text" text
  let style ← optional "Config" style
  answer do
    let style ←
      match style with
      | some json => Style.ofJsonText json
      | none => .ok Style.reference
    (← Synthesizer.ofStyle style).convert text

def convertToFile (tree : FileTree) (text path : Argument) : Answer FileTree := do
  let text ← required "Text" text
  let path ← required "Path" path
  answer (tree.saveText Synthesizer.reference path text)

def payloadOf (text : String) (name : Option String) : Except Error String := do
  let delivery := Delivery.ofBytes (← Synthesizer.reference.convert text)
  let delivery :=
    match name with
    | some name => delivery.withFileName name
    | none => delivery
  .ok delivery.payload

def payload (text name : Argument) : Answer String := do
  let text ← required "Text" text
  let name ← optional "File name" name
  answerFound (payloadOf text name)

def json (text : Argument) (pretty : Bool) : Answer String := do
  let text ← required "Text" text
  let document := Synthesizer.reference.document text
  answerText (Json.render (.ofCompact !pretty) document.toJson)

def extractText (tree : FileTree) (path : Argument) : Answer String := do
  let path ← required "Path" path
  answerFound (tree.extractText path)

def stored (text : String) : Bytes :=
  Utf8.bytes text ++ [0]

/-- What is handed over for a request: a text or a message, each in memory of its own. -/
structure TextResult where
  success : Bool
  data : Option Bytes
  error : Option Bytes
  deriving DecidableEq, Repr

def TextResult.ofAnswer : Answer (Option String) → TextResult
  | .ok text => ⟨true, text.map stored, none⟩
  | .error message => ⟨false, none, some (stored message)⟩

/-- Where the conversion fails, the tree stays as it is. -/
def convertToFileResult (tree : FileTree) (text path : Argument) :
    FileTree × TextResult :=
  let saved := convertToFile tree text path
  (saved.toOption.getD tree, .ofAnswer ((fun _ => none) <$> saved))

def payloadResult (text name : Argument) : TextResult :=
  .ofAnswer (some <$> payload text name)

def jsonResult (text : Argument) (pretty : Bool) : TextResult :=
  .ofAnswer (some <$> json text pretty)

def extractTextResult (tree : FileTree) (path : Argument) : TextResult :=
  .ofAnswer (some <$> extractText tree path)

end Manuscript.Foreign
