import CallChart.Text.WordRanges

/-!
# Character classes

`isBlank` is the property White_Space, `isWord` the class of characters that words are made
of, `isNameStart` the characters a diagram identifier may begin with. `caseFold` sends a
character to its lower case form as far as that form is an ASCII letter, which is all that
comparing with an ASCII name needs.
-/

namespace CallChart.Text

/-- White space : the characters with the property White_Space. -/
def isBlank (c : Char) : Bool :=
  let n := c.toNat
  (0x09 ≤ n && n ≤ 0x0d) || n == 0x20 || n == 0x85 || n == 0xa0 || n == 0x1680 ||
    (0x2000 ≤ n && n ≤ 0x200a) || n == 0x2028 || n == 0x2029 || n == 0x202f || n == 0x205f ||
    n == 0x3000

/-- Word characters : letters, marks, decimal digits, connectors and joiners. -/
def isWord (c : Char) : Bool :=
  if c.toNat < 0x80 then c.isAlphanum || c == '_'
  else wordRanges.any fun r => r.1 ≤ c.toNat && c.toNat ≤ r.2

/-- An identifier of a diagram begins with an ASCII letter or an underscore. -/
def isNameStart (c : Char) : Bool :=
  c.isAlpha || c == '_'

/-- An identifier of a diagram goes on with word characters and hyphens. -/
def isNamePart (c : Char) : Bool :=
  isWord c || c == '-'

/-- Lower case of the characters whose lower case is an ASCII letter : the capital ASCII
letters and the Kelvin sign. All others stay. -/
def caseFold (c : Char) : Char :=
  if c = '\u212a' then 'k' else c.toLower

/-! ## Trimming and words -/

def trimStart (cs : List Char) : List Char :=
  cs.dropWhile isBlank

def trimEnd (cs : List Char) : List Char :=
  (cs.reverse.dropWhile isBlank).reverse

/-- A text without the white space at its two ends. -/
def trim (cs : List Char) : List Char :=
  trimEnd (trimStart cs)

/-- The first run of characters that are not white space, empty in a blank text. -/
def firstWord (cs : List Char) : List Char :=
  (trimStart cs).takeWhile fun c => !isBlank c

/-- Whether a text, trimmed and without regard to case, is the lower case name `name`. -/
def names (name : String) (s : String) : Bool :=
  (trim s.toList).map caseFold == name.toList

/-- Whether `p` begins `cs`. -/
def beginsWith (p cs : List Char) : Bool :=
  p.isPrefixOf cs

end CallChart.Text
