import SchemaTables.Text.Unicode.Alphanumeric
import SchemaTables.Text.Unicode.CaseIgnorable
import SchemaTables.Text.Unicode.Cased
import SchemaTables.Text.Unicode.LowerCase
import SchemaTables.Text.Unicode.Word

/-!
Letters beyond ASCII: which characters may continue a name, which ones an anchor keeps, and the
lower-case form of a text. The capital sigma is the one letter whose lower case hangs on its
neighbours, and the dotted capital i the one that becomes two characters.
-/

namespace SchemaTables.Text

def isAlphanumeric (c : Char) : Bool :=
  if c.toNat < 128 then c.isAlphanum else Unicode.alphanumeric.contains c

def isWordChar (c : Char) : Bool :=
  if c.toNat < 128 then c.isAlphanum || c == '_' else Unicode.word.contains c

/-- Looking past what case ignores, the first character is a cased letter. -/
def startsCased (s : List Char) : Bool :=
  match s.dropWhile Unicode.caseIgnorable.contains with
  | [] => false
  | c :: _ => Unicode.cased.contains c

/-- The lower case of `c` between the text `back`, nearest character first, and the text `ahead`. -/
def lowerAt (back : List Char) (c : Char) (ahead : List Char) : List Char :=
  if c = 'Σ' then [if startsCased back && !startsCased ahead then 'ς' else 'σ']
  else if c = 'İ' then ['i', '\u0307']
  else [Unicode.lowerChar c]

def lowerFrom (back : List Char) : List Char → List Char
  | [] => []
  | c :: ahead => lowerAt back c ahead ++ lowerFrom (c :: back) ahead

/-- The lower-case form of a text. -/
def lowerCase (s : List Char) : List Char := lowerFrom [] s

end SchemaTables.Text
