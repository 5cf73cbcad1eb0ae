import StackBound.Text.Bytes

/-! Which build of the program is running. -/
namespace StackBound

structure Version where
  number : Bytes
  commit : Bytes
  date : Bytes
  deriving DecidableEq, Repr

namespace Version

def unstamped : Version := ⟨utf8 "dev", utf8 "none", utf8 "unknown"⟩

def addSetting (v : Version) (setting : Bytes × Bytes) : Version :=
  if setting.1 = utf8 "vcs.revision" ∧ v.commit = unstamped.commit then
    { v with commit := setting.2 }
  else if setting.1 = utf8 "vcs.time" ∧ v.date = unstamped.date then { v with date := setting.2 }
  else v

def filled (v : Version) (recorded : Bytes) (settings : List (Bytes × Bytes)) : Version :=
  let number :=
    if v.number = unstamped.number ∧ recorded ≠ [] ∧ recorded ≠ utf8 "(devel)" then recorded
    else v.number
  settings.foldl addSetting { v with number := number }

def text (v : Version) (name : Bytes) : Bytes :=
  name ++ utf8 " version " ++ v.number ++ utf8 "\ncommit: " ++ v.commit ++ utf8 "\nbuilt: " ++
    v.date ++ utf8 "\n"

def template (v : Version) : Bytes := v.text (utf8 "\x7b\x7b.Name\x7d\x7d")

end Version
end StackBound
