import DebtSurvey.Digest
import DebtSurvey.Text.CodePoint
import DebtSurvey.Text.Utf8

/-!
# Identity of findings

The identity of a finding is the digest of its key, the parts of which are joined by colons. A key
that holds a lone surrogate has no bytes and so no digest.
-/

namespace DebtSurvey.Identity

/-- The digest of a key. -/
def ofKey (key : Text) : Text := Digest.md5 (Text.Utf8.encode key)

/-- The identity that parts of text make. -/
def ofParts (parts : List Text) : Text := ofKey (Text.join [':'] parts)

/-- The key that parts of document text make. -/
def documentKey : List DocText → DocText
  | [] => []
  | [part] => part
  | part :: next :: rest => part ++ .scalar ':' :: documentKey (next :: rest)

/-- The identity that parts of document text make, unless a surrogate is among them. -/
def ofDocument? (parts : List DocText) : Option Text := (documentKey parts).toText?.map ofKey

end DebtSurvey.Identity
