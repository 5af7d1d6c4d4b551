/-! The version of the library. -/
namespace ZoneCatalog

def version : String := "0.1.0"

end ZoneCatalog
