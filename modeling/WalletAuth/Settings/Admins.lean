import WalletAuth.Text.Blank

/-! The admin list: entries separated by commas. -/

namespace WalletAuth.Admins

/-- The entries of a list, with white space around them dropped and empty ones left out. -/
def parseList (chars : List Char) : List (List Char) :=
  ((chars.splitOn ',').map Text.trimList).filter fun entry => !entry.isEmpty

/-- The entries of an admin list, in order and with repetitions. -/
def parse (text : String) : List String :=
  (parseList text.toList).map String.ofList

def join (entries : List String) : String :=
  String.intercalate "," entries

end WalletAuth.Admins
