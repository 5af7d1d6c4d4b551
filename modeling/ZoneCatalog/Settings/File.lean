import ZoneCatalog.Bytes.Basic
import ZoneCatalog.Settings.Decoder
import ZoneCatalog.Settings.Validity
import ZoneCatalog.Toml.Reader

/-! Settings from a TOML file. They are checked before they are handed out. -/
namespace ZoneCatalog.Settings

def ofToml (text : String) : Except SettingsError Settings := do
  match Toml.read? text.toList with
  | none => throw (.malformed "not a TOML document")
  | some d =>
    let settings ← (Settings.decode .ignored d).mapError fun e => .malformed e.message
    settings.validate
    return settings

/-- The usable settings of a file with the given content, or of a file that is not there. -/
def ofFile (content : Option Bytes) : Except SettingsError Settings :=
  match content with
  | none => .error (.unreadable "no such file")
  | some bytes =>
    match bytes.toString? with
    | none => .error (.unreadable "not UTF-8")
    | some text => ofToml text

end ZoneCatalog.Settings
