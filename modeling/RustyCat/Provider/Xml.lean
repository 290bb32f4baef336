import RustyCat.Lib.Ascii
import RustyCat.Lib.Word

/-!
# XML answers of the providers

`provider_xml.rs` over the tree that the XML parser hands out: which fields of an
answer are read, and which answers are refused.  The parser itself and its limits
on a document are not modelled; a body is what it made of the bytes.
-/

namespace RustyCat

open Ascii

inductive XmlNode where
  | element (name : String) (ns : Option String) (children : List XmlNode)
  | text (value : String)
  /-- A comment or a processing instruction. -/
  | other

/-- The nodes of a document, or why `parse_document` refused it. -/
abbrev XmlBody := Except String (List XmlNode)

structure XmlElement where
  name : String
  ns : Option String
  children : List XmlNode

namespace XmlNode

def element? : XmlNode → Option XmlElement
  | element name ns children => some { name := name, ns := ns, children := children }
  | text _ | other => none

def text? : XmlNode → Option String
  | text value => some value
  | element _ _ _ | other => none

end XmlNode

def trimText (s : String) : String :=
  String.ofList (trim isWhitespace s.toList)

def parseU64 (s : String) : Option Nat := parseUnsigned (Word.maxVal 64) s.toList

namespace XmlElement

def documentRoot (document : List XmlNode) (expected : String) : Except String XmlElement :=
  match (document.filterMap XmlNode.element?).head? with
  | none => .error "XML document has no root element"
  | some root =>
    if root.name ≠ expected then .error "XML document has an unexpected root element" else .ok root

/-- The children with the tag in the namespace of the parent. -/
def childElements (parent : XmlElement) (tag : String) (maxEntries : Nat) :
    Except String (List XmlElement) :=
  let elements := (parent.children.filterMap XmlNode.element?).filter fun child =>
    child.name = tag ∧ child.ns = parent.ns
  if elements.length > maxEntries then .error "XML entry count exceeds the provider limit"
  else .ok elements

def elementText (e : XmlElement) : Except String String :=
  if (e.children.filterMap XmlNode.element?) ≠ [] then
    .error "XML text field contains nested markup"
  else .ok (trimText (String.join (e.children.filterMap XmlNode.text?)))

def exactlyOneText (parent : XmlElement) (tag : String) : Except String String := do
  match ← parent.childElements tag 2 with
  | [element] => element.elementText
  | [] => .error "XML critical field is missing"
  | _ => .error "XML critical field is duplicated"

def exactlyOneNonemptyText (parent : XmlElement) (tag : String) : Except String String := do
  let value ← parent.exactlyOneText tag
  if value = "" then .error "XML critical field is empty" else .ok value

end XmlElement

end RustyCat
