import Dockboard.Engine.Schema.Image
import Dockboard.Engine.Schema.Volume

set_option autoImplicit false

/-! # What takes up space -/

namespace Dockboard.Engine.Schema

open Document Document.Reader

/-- What is kept of an earlier build. -/
def buildStep : Reader Document :=
  record [optional "ID" text, optional "Parent" text, optional "Parents" texts,
    optional "Type" (oneOf ["internal", "frontend", "source.local", "source.git.checkout",
      "exec.cachemount", "regular"]),
    optional "Description" text, optional "InUse" flag, optional "Shared" flag,
    optional "Size" int, moment "CreatedAt", moment "LastUsedAt",
    optional "UsageCount" int]

/-- What takes up space. -/
def space : Reader Document :=
  record [optional "LayersSize" int, optional "Images" (list image),
    optional "Containers" (list container), optional "Volumes" (list volume),
    optional "BuildCache" (list buildStep)]

end Dockboard.Engine.Schema
