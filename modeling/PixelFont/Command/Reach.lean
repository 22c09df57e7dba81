import PixelFont.Command.Run

/-!
The reach of a run: the paths of the files and directories that it may look at. They depend on
the settings, so the reach grows once the settings file is in the tree.
-/

set_option autoImplicit false

namespace PixelFont.Command

/-- The settings that the options ask for, or the default ones where they cannot be read. -/
def Overrides.settingsOrDefault (overrides : Overrides) (limits : Json.Limits) (tree : FileTree) :
    Settings :=
  match overrides.config with
  | none => overrides.apply {}
  | some path => overrides.apply ((Settings.load limits tree path).toOption.getD {})

/-- The paths that a run may look at. -/
def Invocation.reach (limits : Json.Limits) (tree : FileTree) : Invocation → List Path
  | .version => []
  | .help => []
  | .validate sources overrides _ =>
    let settings := overrides.settingsOrDefault limits tree
    overrides.config.toList ++ settings.log.file.toList ++ sources ++ settings.glyphDirectories
  | .build sources output overrides _ =>
    let settings := overrides.settingsOrDefault limits tree
    overrides.config.toList ++ settings.log.file.toList ++ sources ++ settings.glyphDirectories ++
      [output.getD (settings.resolve fontDirectory)]
  | .generate name output overrides _ =>
    let settings := overrides.settingsOrDefault limits tree
    overrides.config.toList ++ output.toList ++
      ((GlyphSet.ofName? name).map fun set ↦ settings.resolve (setDirectory set)).toList

/-- The paths that the run of some arguments may look at. -/
def reach (limits : Json.Limits) (tree : FileTree) (arguments : List String) : List Path :=
  match Invocation.ofArguments arguments with
  | .ok invocation => invocation.reach limits tree
  | .error _ => []

end PixelFont.Command
