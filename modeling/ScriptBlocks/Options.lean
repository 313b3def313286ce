import ScriptBlocks.Palette.Basic
import ScriptBlocks.Reading

/-!
# Options

Everything that can be configured. The defaults follow the conventions of the dialect.
-/

namespace ScriptBlocks

/-- The options of reading, writing and the palette. -/
structure Options where
  reading : ReadingOptions := {}
  writing : WritingOptions := {}
  palette : PaletteOptions := {}
deriving DecidableEq

/-- Whether the options say what the defaults say. The order in which single shadows are listed says
nothing. -/
def Options.isDefault (o : Options) : Bool :=
  let listed := ({} : PaletteOptions).slotShadows
  { o with palette := { o.palette with slotShadows := listed } } = ({} : Options) &&
    o.palette.slotShadows.sameBy (fun m n => m.sameBy (fun a b => a = b) n) listed

end ScriptBlocks
