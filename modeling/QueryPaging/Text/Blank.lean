/-!
# Blanks

The characters with the Unicode property White_Space, and the functions that cut a text at them.
-/

namespace QueryPaging.Blank

/-- Whether a character has the Unicode property White_Space. -/
def isBlank (c : Char) : Bool :=
  let code := c.toNat
  (0x09 ≤ code && code ≤ 0x0D) || code == 0x20 || code == 0x85 || code == 0xA0
    || code == 0x1680 || (0x2000 ≤ code && code ≤ 0x200A) || code == 0x2028 || code == 0x2029
    || code == 0x202F || code == 0x205F || code == 0x3000

def trimStart (text : List Char) : List Char :=
  text.dropWhile isBlank

def trimEnd (text : List Char) : List Char :=
  (text.reverse.dropWhile isBlank).reverse

/-- The text without blanks at either end. -/
def trim (text : List Char) : List Char :=
  trimEnd (trimStart text)

theorem length_dropWhile_le (text : List Char) :
    (text.dropWhile isBlank).length ≤ text.length :=
  (List.dropWhile_suffix isBlank).length_le

theorem length_trimEnd_le (text : List Char) :
    (trimEnd text).length ≤ text.length := by
  have bound := length_dropWhile_le text.reverse
  simpa [trimEnd] using bound

theorem length_trim_le (text : List Char) :
    (trim text).length ≤ text.length :=
  Nat.le_trans (length_trimEnd_le _) (length_dropWhile_le text)

/-- Whether a text holds nothing but blanks. -/
def isBlankText (text : String) : Bool :=
  text.toList.all isBlank

/-- The longest runs of characters that are not blank. -/
def words : List Char → List (List Char)
  | [] => []
  | c :: rest =>
      if isBlank c then
        words rest
      else
        match rest, words rest with
        | next :: _, word :: others =>
            if isBlank next then [c] :: word :: others else (c :: word) :: others
        | _, others => [c] :: others

/-- The words of a text with a single space between them. -/
def squash (text : String) : String :=
  " ".intercalate ((words text.toList).map String.ofList)

end QueryPaging.Blank
