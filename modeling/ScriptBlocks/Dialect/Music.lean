import ScriptBlocks.Dialect.Basic

/-!
# Music

Tones and rests. A duration is kept as it is written, so that a fraction of a beat stays the same
text.
-/

namespace ScriptBlocks.Dialect

/-- Durations as options. -/
def beats : List (String × String) :=
  [("1", "1"), ("1/2", "0.5"), ("1/4", "0.25"), ("1/8", "0.125"), ("2", "2"), ("4", "4")]

/-- The call that sounds a tone until further notice. -/
def ringTone (frequency : String) : String := "music.ring_tone(" ++ frequency ++ ")\n"

/-- Plays a tone; in looping mode it sounds until further notice. -/
def musicPlayTone : Form where
  name := "music_play_tone"
  category := some "Music"
  role := .statement
  template := .chained "play tone %1 for %2 beat %3"
    [.dropdown "NOTE"
        [("Middle C", "262"), ("Middle D", "294"), ("Middle E", "330"), ("Middle F", "349"),
          ("Middle G", "392"), ("Middle A", "440"), ("Middle B", "494")],
      .dropdown "DURATION" beats,
      .dropdown "MODE"
        [("until done", "until_done"), ("in background", "background"),
          ("looping in background", "loop")]]
    "Play a tone of specific frequency and duration"
  pattern := .all
    ["music.play_tone(", .group 1 .digits, comma, .group 2 decimalPattern, ")"]
  read c := .ok (fields [("NOTE", c.group 1), ("DURATION", c.group 2), ("MODE", "until_done")])
  write p :=
    let frequency := p.fieldOr "NOTE" "262"
    if p.fieldText "MODE" = "loop" then lines (ringTone frequency)
    else lines ("music.play_tone(" ++ frequency ++ ", " ++ p.fieldOr "DURATION" "1" ++ ")\n")

/-- Sounds a tone until further notice. -/
def musicRingTone : Form where
  name := "music_ring_tone"
  category := some "Music"
  role := .statement
  template := .chained "ring tone (Hz) %1" [.boundedNumber "FREQ" 262 100 10000]
    "Continuously play a tone at the given frequency"
  pattern := .all ["music.ring_tone(", .group 1 .digits, ")"]
  read c := do return fields [("FREQ", ← integer c 1)]
  write p := lines (ringTone (p.fieldOr "FREQ" "262"))

/-- Keeps silent for a number of beats. -/
def musicRest : Form where
  name := "music_rest"
  category := some "Music"
  role := .statement
  template := .chained "rest for %1 beat" [.dropdown "DURATION" beats]
    "Pause playback for a number of beats"
  pattern := .all ["music.rest(", .group 1 decimalPattern, ")"]
  read c := .ok (fields [("DURATION", c.group 1)])
  write p := lines ("music.rest(" ++ p.fieldOr "DURATION" "1" ++ ")\n")

end ScriptBlocks.Dialect
