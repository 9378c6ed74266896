import Manuscript.Xml.Fault
/-!
# Tokens of XML

An XML text is cut into tags and texts. Tags are told apart by their first characters; a text
that ends inside a tag ends the tag too. A text is kept as it is written.
-/

namespace Manuscript.Xml

def isSpace (c : Char) : Bool :=
  c == ' ' || c == '\t' || c == '\n' || c == '\r'

/-- A tag, or a text between tags. A name of an end tag is kept as it is written. -/
inductive Token where
  | text (content : List Char)
  | start (name : List Char)
  | empty (name : List Char)
  | finish (content : List Char)
  | other
  deriving DecidableEq, Repr

def beforeClose (cs : List Char) : List Char :=
  cs.takeWhile (· != '>')

def afterClose (cs : List Char) : List Char :=
  (cs.dropWhile (· != '>')).drop 1

/-- Cuts at the first `>` that is not inside quotes. -/
def cutTag (quote : Option Char) : List Char → List Char × List Char
  | [] => ([], [])
  | c :: cs =>
    match quote with
    | some q =>
      let (inside, rest) := cutTag (if c = q then none else quote) cs
      (c :: inside, rest)
    | none =>
      if c = '>' then ([], cs)
      else
        let (inside, rest) := cutTag (if c = '\x22' ∨ c = '\x27' then some c else none) cs
        (c :: inside, rest)

def cutWhere? (p : List Char → Bool) (before : List Char) :
    List Char → Option (List Char × List Char)
  | [] => none
  | c :: cs =>
    if c = '>' && p before then some (before.reverse, cs) else cutWhere? p (c :: before) cs

theorem length_afterClose (cs : List Char) : (afterClose cs).length ≤ cs.length := by
  have := (List.dropWhile_suffix (l := cs) (· != '>')).length_le
  simp only [afterClose, List.length_drop]
  omega

theorem length_cutTag (quote : Option Char) (cs : List Char) :
    (cutTag quote cs).2.length ≤ cs.length := by
  induction cs generalizing quote with
  | nil => simp [cutTag]
  | cons c cs ih =>
    unfold cutTag
    split
    · exact Nat.le_succ_of_le (ih _)
    · split
      · exact Nat.le_succ _
      · exact Nat.le_succ_of_le (ih _)

theorem length_cutWhere? {p : List Char → Bool} {before cs inside rest : List Char}
    (h : cutWhere? p before cs = some (inside, rest)) : rest.length ≤ cs.length := by
  induction cs generalizing before with
  | nil => cases h
  | cons c cs ih =>
    unfold cutWhere? at h
    split at h
    · cases h; exact Nat.le_succ _
    · exact Nat.le_succ_of_le (ih h)

def elementToken (inside : List Char) : Token :=
  let name := inside.takeWhile (!isSpace ·)
  if inside.getLast? = some '/' then
    .empty (if name.length < inside.length then name else name.dropLast)
  else .start name

def startsWith (letters cs : List Char) : Bool :=
  (letters.map Char.toUpper).isPrefixOf (cs.map Char.toUpper)

def comment (cs : List Char) : Except Fault (Token × List Char) :=
  match cutWhere? (fun before => 4 ≤ before.length && ['-', '-'].isPrefixOf before) [] cs with
  | some (inside, rest) =>
    if ['-', '-'].isPrefixOf inside then .ok (.other, rest) else .error (.unfinished .comment)
  | none => .error (.unfinished .comment)

def characterData (cs : List Char) : Except Fault (Token × List Char) :=
  match cutWhere? (fun before => [']', ']'].isPrefixOf before) [] cs with
  | some (inside, rest) =>
    if startsWith "[CDATA[".toList inside then .ok (.other, rest)
    else .error (.unfinished .characterData)
  | none => .error (.unfinished .characterData)

/-- Cuts off a document type, after `<!`: every `<` in it has its `>`. -/
def documentType (cs : List Char) : Except Fault (Token × List Char) :=
  match cutWhere? (fun before => before.count '<' == before.count '>') [] cs with
  | some (inside, rest) =>
    if !startsWith "DOCTYPE".toList inside then .error (.unfinished .documentType)
    else if (inside.drop 7).all isSpace then .error .emptyDocumentType
    else .ok (.other, rest)
  | none => .error (.unfinished .documentType)

/-- Cuts off an instruction, after `<?`. It must hold something before its `?>`. -/
def instruction (cs : List Char) : Except Fault (Token × List Char) :=
  let inside := beforeClose cs
  if 1 < inside.length ∧ inside.getLast? = some '?' then .ok (.other, afterClose cs)
  else .error (.unfinished .instruction)

def bang (cs : List Char) : Except Fault (Token × List Char) :=
  match cs with
  | [] => .error (.unfinished .bang)
  | c :: _ =>
    if c = '-' then comment cs
    else if c = '[' then characterData cs
    else if c = 'D' ∨ c = 'd' then documentType cs
    else .error (.unknownBang (leadingByte c))

def tag (c : Char) (cs : List Char) : Except Fault (Token × List Char) :=
  if c = '!' then bang cs
  else if c = '?' then instruction cs
  else if c = '/' then .ok (.finish (beforeClose cs), afterClose cs)
  else
    let (inside, rest) := cutTag none (c :: cs)
    .ok (elementToken inside, rest)

theorem length_bang {cs rest : List Char} {token : Token} (h : bang cs = .ok (token, rest)) :
    rest.length ≤ cs.length := by
  unfold bang at h
  split at h
  · cases h
  split at h
  · unfold comment at h
    split at h
    · next hc =>
      split at h
      · cases h; exact length_cutWhere? hc
      · cases h
    · cases h
  split at h
  · unfold characterData at h
    split at h
    · next hc =>
      split at h
      · cases h; exact length_cutWhere? hc
      · cases h
    · cases h
  split at h
  · unfold documentType at h
    split at h
    · next hc =>
      split at h
      · cases h
      split at h
      · cases h
      · cases h; exact length_cutWhere? hc
    · cases h
  · cases h

theorem length_tag {c : Char} {cs rest : List Char} {token : Token}
    (h : tag c cs = .ok (token, rest)) : rest.length ≤ cs.length + 1 := by
  unfold tag at h
  split at h
  · exact Nat.le_succ_of_le (length_bang h)
  split at h
  · unfold instruction at h
    dsimp only at h
    split at h
    · cases h; exact Nat.le_succ_of_le (length_afterClose cs)
    · cases h
  split at h
  · cases h; exact Nat.le_succ_of_le (length_afterClose cs)
  · cases h; exact length_cutTag none (c :: cs)

/-- The tokens of a text, and the fault at which they end. A `<` at the end of a text is
dropped. -/
def tokensFrom (cs : List Char) : List Token × Option Fault :=
  match cs with
  | [] => ([], none)
  | ['<'] => ([], none)
  | c :: d :: rest =>
    if c = '<' then
      match _h : tag d rest with
      | .error fault => ([], some fault)
      | .ok (token, after) =>
        let (tokens, fault) := tokensFrom after
        (token :: tokens, fault)
    else
      let (tokens, fault) := tokensFrom ((d :: rest).dropWhile (· != '<'))
      (.text (c :: (d :: rest).takeWhile (· != '<')) :: tokens, fault)
  | [c] => ([.text [c]], none)
termination_by cs.length
decreasing_by
  · have := length_tag _h
    simp only [List.length_cons]
    omega
  · have := (List.dropWhile_suffix (l := d :: rest) (· != '<')).length_le
    simp only [List.length_cons] at this ⊢
    omega

/-- The tokens of a text, without the byte order mark that it may begin with. -/
def tokens (s : String) : List Token × Option Fault :=
  match s.toList with
  | '\ufeff' :: cs => tokensFrom cs
  | cs => tokensFrom cs

end Manuscript.Xml
