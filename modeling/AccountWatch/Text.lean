/-! Character lists: white space, trimming, width in UTF-8 octets, occurrence of one text in another,
indentation. White space is the Unicode property White_Space, not the ASCII class of the core library. -/
namespace AccountWatch.Text

def isBlank (c : Char) : Bool :=
  let n := c.toNat
  (9 ≤ n && n ≤ 13) || n == 0x20 || n == 0x85 || n == 0xA0 || n == 0x1680 ||
    (0x2000 ≤ n && n ≤ 0x200A) || n == 0x2028 || n == 0x2029 || n == 0x202F || n == 0x205F ||
    n == 0x3000

def trim (s : List Char) : List Char :=
  ((s.dropWhile isBlank).reverse.dropWhile isBlank).reverse

def width : List Char → Nat
  | [] => 0
  | c :: rest => c.utf8Size + width rest

def occurs (needle : List Char) : List Char → Bool
  | [] => needle.isEmpty
  | c :: rest => needle.isPrefixOf (c :: rest) || occurs needle rest

def indented (fresh : Bool) : List Char → List Char
  | [] => []
  | c :: rest =>
      if c = '\n' then c :: indented true rest
      else if fresh then ' ' :: ' ' :: ' ' :: ' ' :: c :: indented false rest
      else c :: indented false rest

end AccountWatch.Text
