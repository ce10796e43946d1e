import CallAtlas.Text.Basic

namespace CallAtlas.Provider

def inSources : String := "huaweicloud"

-- A name of the source tree as another provider publishes it.
def rename (name provider : String) : String := Text.replace name inSources provider

end CallAtlas.Provider
