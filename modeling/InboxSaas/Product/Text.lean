import InboxSaas.Encoding.Bytes
import InboxSaas.Encoding.Json
import InboxSaas.Product.UuidText

/-!
# JavaScript text

String literals of the source, the white space that `trim` removes and `\s` matches, and the digits
of `digest("hex")`.
-/

namespace InboxSaas.Product

/-- A string literal. -/
def js (text : String) : JsString := Encoding.units text

/-- White space and line terminators. -/
def isWhiteSpace (unit : UInt16) : Bool :=
  (9 ≤ unit && unit ≤ 13) || unit == 0x20 || unit == 0xA0 || unit == 0x1680 ||
    (0x2000 ≤ unit && unit ≤ 0x200A) || unit == 0x2028 || unit == 0x2029 || unit == 0x202F ||
    unit == 0x205F || unit == 0x3000 || unit == 0xFEFF

def trim (text : JsString) : JsString :=
  ((text.dropWhile isWhiteSpace).reverse.dropWhile isWhiteSpace).reverse

def hexText (bytes : Bytes) : JsString := Encoding.hex hexDigit bytes

theorem hexDigit_injective :
    ∀ m n, m < 16 → n < 16 → hexDigit m = hexDigit n → m = n := by
  have h : ∀ m < 16, ∀ n < 16, hexDigit m = hexDigit n → m = n := by decide
  exact fun m n hm hn => h m hm n hn

theorem hexText_injective : Function.Injective hexText :=
  Encoding.hex_injective hexDigit_injective

end InboxSaas.Product
