import ClipFerry.VirtualTree.Descriptor

namespace ClipFerry.VirtualTree

def isControl (c : Char) : Bool :=
  c.val ≤ 0x1f || (0x7f ≤ c.val && c.val ≤ 0x9f)

def forbiddenInComponent : List Char := ['<', '>', ':', '"', '/', '\\', '|', '?', '*']

def eqIgnoreAsciiCase (a b : Text) : Bool := a.map Char.toLower == b.map Char.toLower

def toAsciiUppercase (a : Text) : Text := a.map Char.toUpper

def stripPrefix? (pre name : Text) : Option Text := pre.isPrefixOf? name

def serialSuffixes : List Text :=
  [['1'], ['2'], ['3'], ['4'], ['5'], ['6'], ['7'], ['8'], ['9'], ['¹'], ['²'], ['³']]

def serialNames : List Text :=
  (["COM1", "COM2", "COM3", "COM4", "COM5", "COM6", "COM7", "COM8", "COM9",
    "LPT1", "LPT2", "LPT3", "LPT4", "LPT5", "LPT6", "LPT7", "LPT8", "LPT9"] : List String).map
    String.toList

def isReservedDosName (name : Text) : Bool :=
  let stem := (name.splitOn '.').headD name
  if eqIgnoreAsciiCase stem ['C', 'O', 'N'] || eqIgnoreAsciiCase stem ['P', 'R', 'N']
      || eqIgnoreAsciiCase stem ['A', 'U', 'X'] || eqIgnoreAsciiCase stem ['N', 'U', 'L']
      || eqIgnoreAsciiCase stem ['C', 'L', 'O', 'C', 'K', '$'] then
    true
  else
    let upper := toAsciiUppercase stem
    if ((stripPrefix? ['C', 'O', 'M'] upper).or (stripPrefix? ['L', 'P', 'T'] upper)).any
        (serialSuffixes.contains ·) then
      true
    else
      serialNames.contains upper

def endsWithAny (name : Text) (ends : List Char) : Bool :=
  match name.getLast? with
  | none => false
  | some c => ends.contains c

def validateVirtualPathComponent (name : Text) : Except HResult Unit :=
  if name.isEmpty || name == ['.'] || name == ['.', '.']
      || name.any (forbiddenInComponent.contains ·) || endsWithAny name [' ', '.']
      || name.any isControl || isReservedDosName name then
    .error .formatEtc
  else if utf16Count name ≥ maxFileNameUnits then
    .error .formatEtc
  else
    .ok ()

def components (name : Text) : List Text := name.splitOn '\\'

def joinComponents (parts : List Text) : Text := ['\\'].intercalate parts

def validateVirtualPath (name : Text) : Except HResult Unit :=
  if name.isEmpty || name.contains '/' || decide (utf16Count name ≥ maxFileNameUnits) then
    .error .formatEtc
  else
    (components name).forM validateVirtualPathComponent

end ClipFerry.VirtualTree
