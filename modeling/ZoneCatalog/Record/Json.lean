import ZoneCatalog.Json.Decode
import ZoneCatalog.Json.Writer
import ZoneCatalog.Record.Decoder
import ZoneCatalog.Record.Encoder

/-! The JSON text under which record sets are stored. -/
namespace ZoneCatalog

def RecordSets.toJson (s : RecordSets) : String := Json.writeString s.encode

def RecordSets.ofJson (text : String) : Except JsonError RecordSets :=
  Json.decode RecordSets.decode text

end ZoneCatalog
