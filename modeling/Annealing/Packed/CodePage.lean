import Annealing.Text.Basic

/-!
# Packed — names of files in archives

Names in archives are octets.  They are read as UTF-8 or, in an older way, with a character for
every octet: the octets from 128 on stand for the characters of `CodePage.upper`.
-/

namespace Annealing.CodePage

/-- The characters of the octets from 128 on. -/
def upper : Array Char :=
  ("ÇüéâäàåçêëèïîìÄÅÉæÆôöòûùÿÖÜ¢£¥₧ƒ"
    ++ "áíóúñÑªº¿⌐¬½¼¡«»░▒▓│┤╡╢╖╕╣║╗╝╜╛┐"
    ++ "└┴┬├─┼╞╟╚╔╩╦╠═╬╧╨╤╥╙╘╒╓╫╪┘┌█▄▌▐▀"
    ++ "αßΓπΣσµτΦΘΩδ∞φε∩≡±≥≤⌠⌡÷≈°∙·√ⁿ²■\u00a0").toList.toArray

/-- The character of an octet. -/
def char (o : UInt8) : Char :=
  if o < 0x80 then Char.ofNat o.toNat else upper.getD (o.toNat - 0x80) ' '

/-- The text of octets. -/
def text (octets : List UInt8) : Text :=
  octets.map fun o => .char (char o)

end Annealing.CodePage
