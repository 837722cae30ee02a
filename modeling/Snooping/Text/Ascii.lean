/-! Comparing names without regard to the case of ASCII letters. -/
namespace Snooping.Text

/-- Letters outside ASCII keep their case. -/
def asciiLower (s : String) : String := String.ofList (s.toList.map Char.toLower)

end Snooping.Text
