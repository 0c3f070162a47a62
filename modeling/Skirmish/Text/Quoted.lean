import Skirmish.Text.Printable
import Skirmish.Text.Surrogate

namespace Skirmish.Text

def hexDigits (width n : Nat) : List Char :=
  let ds := Nat.toDigits 16 n
  List.replicate (width - ds.length) '0' ++ ds

def escaped (quote c : Char) : List Char :=
  if c = quote || c = '\\' then ['\\', c]
  else if c = '\n' then ['\\', 'n']
  else if c = '\r' then ['\\', 'r']
  else if c = '\t' then ['\\', 't']
  else if isPrintable c then [c]
  else if c.toNat < 0x100 then '\\' :: 'x' :: hexDigits 2 c.toNat
  else if c.toNat < 0x10000 then '\\' :: 'u' :: hexDigits 4 c.toNat
  else '\\' :: 'U' :: hexDigits 8 c.toNat

def escapedCode (quote : Char) (n : Nat) : List Char :=
  if isSurrogate n then '\\' :: 'u' :: hexDigits 4 n else escaped quote (Char.ofNat n)

def quotedCodes (codes : List Nat) : String :=
  let quote := if codes.contains '\''.toNat && !codes.contains '"'.toNat then '"' else '\''
  String.ofList (quote :: codes.flatMap (escapedCode quote) ++ [quote])

def quoted (s : String) : String := quotedCodes (s.toList.map Char.toNat)

end Skirmish.Text
