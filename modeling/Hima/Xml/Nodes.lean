import Hima.Lib.SiblingTree

/-!
# XML nodes

What `IPACM_Xml.cpp` reads of a libxml tree: the names of elements and the text in them. Strings are
byte strings, and a text is copied into a buffer of the stack before it is looked at.
-/
namespace Hima.Xml

open SiblingTree

/-- The bytes of a C string, without the NUL behind them. -/
abbrev Text := List UInt8

def text (s : String) : Text := s.toList.map fun c => c.toNat.toUInt8

/-- `xmlNode` by its `type`: `XML_ELEMENT_NODE`, `XML_TEXT_NODE`, and the types that are skipped. -/
inductive XmlLabel where
  | element (name : Text)
  | text (content : Text)
  | other
deriving DecidableEq

/-- What `xmlNode *` points to. -/
abbrev XmlNode := Forest XmlLabel

/-- An element with one text. -/
def leaf (name content : String) : XmlLabel × XmlNode :=
  (.element (text name), .node (.text (text content)) .null .null)

/-- An element with elements in it. -/
def elem (name : String) (nodes : List (XmlLabel × XmlNode)) : XmlLabel × XmlNode :=
  (.element (text name), chain nodes)

/-- `IPACM_read_content_element`, from the children of the element. -/
def readContentElement : XmlNode → Option Text
  | .null => none
  | .node (.text content) _ _ => some content
  | .node _ _ next => readContentElement next

/-! ### Strings -/

/-- `tolower` -/
def toLower (b : UInt8) : UInt8 := if 65 ≤ b ∧ b ≤ 90 then b + 32 else b

/-- Whether `strncasecmp` returns zero. -/
def strncasecmp (a b : Text) (n : Nat) : Bool := (a.take n).map toLower = (b.take n).map toLower

/-- Whether `IPACM_util_icmp_string` returns zero. -/
def utilIcmpString (xmlStr str : Text) : Bool :=
  if str.length = xmlStr.length then strncasecmp xmlStr str str.length else false

/-- The first tag of a chain of comparisons that a name is equal to. -/
def tagOf {T : Type} (tags : List (String × T)) (name : Text) : Option T :=
  (tags.find? fun tag => utilIcmpString name (text tag.1)).map Prod.snd

/-- `MAX_XML_STR_LEN` -/
def maxXmlStrLen : Nat := 120

/-- `memcpy(content_buf, (void *)content, str_size)`; `none` when it writes behind `content_buf`. -/
def copyContent (content : Text) : Option Text :=
  if content.length ≤ maxXmlStrLen then some content else none

/-- `content_buf[MAX_XML_STR_LEN-1] = '\0'` -/
def terminated (contentBuf : Text) : Text := contentBuf.take (maxXmlStrLen - 1)

/-- `atoi`. A number that is no `int`, which C leaves open, stays as it is. -/
def atoi (s : Text) : Int :=
  let digits (s : Text) : Int :=
    (s.takeWhile fun b => 48 ≤ b ∧ b ≤ 57).foldl (fun n b => 10 * n + (b.toNat - 48)) 0
  match s.dropWhile fun b => b = 32 ∨ (9 ≤ b ∧ b ≤ 13) with
  | 45 :: s => -digits s
  | 43 :: s => digits s
  | s => digits s

example : atoi (text " -120x") = -120 := by decide

/-- What the code takes from the C library, and from a stack that it does not initialise. -/
structure Libc where
  /-- `ntohl(inet_addr(s))` -/
  inetAddr : Text → UInt32
  /-- The words that `inet_pton` writes, in host order; `none` when it writes nothing. -/
  inetPton : Text → Option (Vector UInt32 4)
  /-- What `ip6_addr` contains when a function is entered. -/
  uninitialised : Vector UInt32 4

end Hima.Xml
