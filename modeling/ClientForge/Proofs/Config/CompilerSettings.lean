/-
# ClientForge.Proofs.Config.CompilerSettings -- settings of the compiler with comments and commas

A compiler's settings file is JSON with comments and trailing commas.  The profile is refined as
the value says that is written (`withSettingsFile_refines`), although strings of it may have lost
commas on the way: keys that count hold no closing bracket, and what counts as given does not
change (`withSettings_alike`).

The value is whatever the file writes, but for one limit: an integer that has more digits than the
reader takes stops it, wherever it stands (`withSettingsFile_tooLong`).
-/
import ClientForge.Profile
import ClientForge.Proofs.Files.Writing
import ClientForge.Proofs.Json.Reading

namespace ClientForge

set_option autoImplicit false

open Json

namespace Json

/-- **What is left of a text with comments and trailing commas is read as what is alike.** -/
theorem WrittenWithComments.read {text : List Char} {v : Value}
    (written : WrittenWithComments (some Text.maxDigits) text v) :
    ∃ v', Alike (.value v) (.value v') ∧
      Json.read (plainJson (String.ofList (Text.unifyLines text))) = .ok v' := by
  obtain ⟨ts, laid, writes⟩ := written
  have blank := laid_dropTrailingCommas (laid_withoutComments laid writes.sound) writes.sound
  obtain ⟨ts', v' | _ | _, plain, alike, dropped⟩ := writes.plain
  case value =>
    have same := dropped []
    rw [List.append_nil] at same
    rw [same] at blank
    refine ⟨v', alike, ?_⟩
    rw [plainJson, String.toList_ofList]
    exact read_laid blank (by simpa [dropCommas] using plain)
  all_goals cases alike

end Json

namespace Profile

/-- The options of the compiler that settings hold. -/
def OptionsOf (settings : Value) (options : Entries) : Prop :=
  ∃ entries, settings = .map entries ∧
    Entries.get? "compilerOptions" entries = some (.map options)

/-- A profile is refined by settings: by the option of that name, else by the one that implies
it. -/
structure Refines (before after : Profile) (settings : Value) : Prop where
  awaited : after.hasAwaited = before.hasAwaited
  own : ∀ options v, OptionsOf settings options →
    Entries.get? "allowSyntheticDefaultImports" options = some v →
      after.syntheticDefaults = v.truthy
  implied : ∀ options v, OptionsOf settings options →
    Entries.get? "allowSyntheticDefaultImports" options = none →
      Entries.get? "esModuleInterop" options = some v → after.syntheticDefaults = v.truthy
  kept : (∀ options, OptionsOf settings options →
    Entries.get? "allowSyntheticDefaultImports" options = none ∧
      Entries.get? "esModuleInterop" options = none) →
    after.syntheticDefaults = before.syntheticDefaults

section Alike

variable {profile : Profile} {path : String} {v v' : Value}

theorem syntheticOption?_alike {options options' : Entries}
    (each : ∀ key, ¬ Bracketed key →
      AlikeFound (Entries.get? key options) (Entries.get? key options')) :
    syntheticOption? options' = syntheticOption? options := by
  have truthy {found found' : Option Value} (alike : AlikeFound found found') :
      found'.map Value.truthy = found.map Value.truthy := by
    cases alike with
    | some alike => simp [alike.truthy]
    | none => rfl
  have own := each "allowSyntheticDefaultImports" (by decide)
  have implied := truthy (each "esModuleInterop" (by decide))
  unfold syntheticOption?
  generalize Entries.get? "allowSyntheticDefaultImports" options = found at own ⊢
  generalize Entries.get? "allowSyntheticDefaultImports" options' = found' at own ⊢
  cases own with
  | some alike => simp [alike.truthy]
  | none => exact implied

/-- Settings that are alike refine a profile alike. -/
theorem withSettings_alike (alike : Alike (.value v) (.value v')) :
    profile.withSettings path v' = profile.withSettings path v := by
  cases v with
  | atom a => cases alike <;> rfl
  | list items =>
      cases alike
      rfl
  | map entries =>
      obtain ⟨entries', rfl, each⟩ := alike.get?
      have found := each "compilerOptions" (by decide)
      unfold withSettings
      dsimp only
      generalize Entries.get? "compilerOptions" entries = options at found ⊢
      generalize Entries.get? "compilerOptions" entries' = options' at found ⊢
      cases found with
      | none => rfl
      | @some w w' alike =>
          cases w with
          | atom a => cases alike <;> rfl
          | list items =>
              cases alike
              rfl
          | map options =>
              obtain ⟨options', rfl, each⟩ := alike.get?
              simp [syntheticOption?_alike each]

/-- What the settings say is what the profile is refined by. -/
theorem withSettings_refines
    (object : ∀ entries w, v = .map entries → Entries.get? "compilerOptions" entries = some w →
      ∃ options, w = .map options) :
    ∃ refined, profile.withSettings path v = .ok refined ∧ profile.Refines refined v := by
  have unset (noOptions : ∀ options, ¬ OptionsOf v options) : profile.Refines profile v :=
    ⟨rfl, fun options _ has => absurd has (noOptions options),
      fun options _ has => absurd has (noOptions options), fun _ => rfl⟩
  cases v with
  | atom a => exact ⟨profile, rfl, unset fun _ ⟨_, same, _⟩ => by cases same⟩
  | list items => exact ⟨profile, rfl, unset fun _ ⟨_, same, _⟩ => by cases same⟩
  | map entries =>
      unfold withSettings
      dsimp only
      cases found : Entries.get? "compilerOptions" entries with
      | none =>
          refine ⟨profile, rfl, unset ?_⟩
          rintro options ⟨entries', same, has⟩
          cases same
          rw [found] at has
          cases has
      | some w =>
          obtain ⟨options, rfl⟩ := object entries w rfl found
          have only (options' : Entries) (has : OptionsOf (.map entries) options') :
              options' = options := by
            obtain ⟨entries', same, has⟩ := has
            cases same
            rw [found] at has
            cases has
            rfl
          refine ⟨_, rfl, rfl, ?_, ?_, ?_⟩
          · rintro options' v has own
            obtain rfl := only options' has
            simp [syntheticOption?, own]
          · rintro options' v has noOwn implied
            obtain rfl := only options' has
            simp [syntheticOption?, noOwn, implied]
          · intro neither
            obtain ⟨noOwn, noImplied⟩ := neither options ⟨entries, rfl, found⟩
            simp [syntheticOption?, noOwn, noImplied]

end Alike

section Files

variable {files : Files.FileTable} {profile : Profile} {path : String} {bytes : List UInt8}
  {text : List Char} {settings : Value}

theorem readText_of_decoded (holds : files.readBytes (.ofText path) = .ok bytes)
    (decoded : Text.decodeFrom .between 0 [] bytes = .ok text) :
    files.readText (.ofText path) = .ok (String.ofList (Text.unifyLines text)) := by
  unfold Files.FileTable.readText Text.decodeUtf8
  rw [holds]
  simp [bind, Except.bind, decoded, Except.map]

theorem withSettingsFile_eq {content : String}
    (holds : files.readText (.ofText path) = .ok content) :
    profile.withSettingsFile files path =
      match Json.read (plainJson content) with
      | .error .malformed => reject (.config (.settingsUnreadable path syntaxDetail))
      | .error (.number fault) => .error (.badInteger fault)
      | .ok settings => profile.withSettings path settings := by
  unfold withSettingsFile
  cases read : Json.read (plainJson content) with
  | error fault => cases fault <;> simp [holds, read]
  | ok settings => simp [holds, read]

/-- **Comments and commas are harmless.**  A settings file that is JSON with comments between tokens
and commas in front of closing brackets refines the profile as its value says. -/
theorem withSettingsFile_refines (holds : files.readBytes (.ofText path) = .ok bytes)
    (decoded : Text.decodeFrom .between 0 [] bytes = .ok text)
    (written : WrittenWithComments (some Text.maxDigits) text settings)
    (object : ∀ entries w, settings = .map entries →
      Entries.get? "compilerOptions" entries = some w → ∃ options, w = .map options) :
    ∃ refined, profile.withSettingsFile files path = .ok refined ∧
      profile.Refines refined settings := by
  obtain ⟨settings', alike, read⟩ := written.read
  have refined : ∃ refined, profile.withSettings path settings = .ok refined ∧
      profile.Refines refined settings := withSettings_refines object
  obtain ⟨refined, run, refines⟩ := refined
  refine ⟨refined, ?_, refines⟩
  rw [withSettingsFile_eq (readText_of_decoded holds decoded), read]
  exact (withSettings_alike alike).trans run

end Files

/-! ## Settings of a file -/

/-- The bytes of a text in ASCII. -/
def asciiBytes (text : List Char) : List UInt8 := text.map fun c => UInt8.ofNat c.toNat

theorem decodeFrom_ascii {text : List Char} (ascii : ∀ c ∈ text, c.toNat < 0x80) :
    Text.decodeFrom .between 0 [] (asciiBytes text) = .ok text := by
  have all (position : Nat) (done : List Char) :
      Text.decodeFrom .between position done (asciiBytes text) = .ok (done.reverse ++ text) := by
    induction text generalizing position done with
    | nil => simp [asciiBytes, Text.decodeFrom]
    | cons c rest ih =>
        obtain ⟨first, later⟩ := List.forall_mem_cons.mp ascii
        have byte : (UInt8.ofNat c.toNat).toNat = c.toNat := by
          rw [UInt8.toNat_ofNat']
          omega
        have single : Text.followers? c.toNat = some (0, 0x80, 0xbf) := if_pos first
        rw [asciiBytes, List.map_cons, Text.decodeFrom, byte, single, Char.ofNat_toNat]
        exact (ih later _ _).trans (by simp)
  exact all 0 []

/-- A folder with one settings file. -/
def settingsFiles (text : List Char) : Files.FileTable where
  workdir := []
  files := [(["tsconfig.json"], asciiBytes text)]
  folders := []

theorem settingsFiles_readBytes (text : List Char) :
    (settingsFiles text).readBytes (.ofText "tsconfig.json") = .ok (asciiBytes text) := rfl

/-- Settings with comments in front of tokens and behind the last one, commas in front of brackets,
and a string with all of these in it. -/
def commentedSettings : String :=
  "\x7b\r\n// \"strict\": [,]\r\n\"compilerOptions\":\x7b/* ,\x7d */\"outDir\":\"/*,\x7d//\"," ++
    "\"esModuleInterop\":false,\x7d,\x7d\n// end"

/-- What is written there. -/
def commentedValue : Value :=
  .object [("compilerOptions",
    .object [("outDir", .str "/*,\x7d//"), ("esModuleInterop", .bool false)])]

theorem commentedSettings_written :
    WrittenWithComments (some Text.maxDigits) commentedSettings.toList commentedValue := by
  have quoted (s : String) (plain : ∀ c ∈ s.toList, 0x20 ≤ c.toNat ∧ c ≠ '"' ∧ c ≠ '\\') :
      Piece.Spell (s.toList.map .char) s.toList := Piece.spell_raw plain
  have comma : IsTrail true [.sign ','] := Or.inr ⟨rfl, rfl⟩
  have options : Writes true (some Text.maxDigits) _ (.members _) :=
    .members (quoted "outDir" (by decide)) (.quoted (quoted "/*,\x7d//" (by decide)))
      (.member (quoted "esModuleInterop" (by decide)) (.word (.bool false)))
  have settings : Writes true (some Text.maxDigits) _ (.members _) :=
    .member (quoted "compilerOptions" (by decide)) (.object options comma)
  have inLine : ∀ d ∈ " \"strict\": [,]".toList, ¬ IsBreak d := by decide
  have line : Gap "\r\n// \"strict\": [,]\r\n".toList :=
    .blank rfl (.blank rfl (.line inLine (Or.inr rfl) (.blank rfl .nil)))
  have opens : ¬ ['*', '/'] <:+: " ,\x7d ".toList := by decide
  have block : Gap "/* ,\x7d */".toList := .block opens .nil
  have atEnd : ∀ d ∈ " end".toList, ¬ IsBreak d := by decide
  have ending : Ending "\n// end".toList := .line (.blank rfl .nil) atEnd
  refine ⟨_, ?_, .object settings comma⟩
  exact .cons .nil (.cons line (.cons .nil (.cons .nil (.cons block (.cons .nil (.cons .nil
    (.cons .nil (.cons .nil (.cons .nil (.cons .nil (.cons .nil (.cons .nil (.cons .nil (.cons .nil
      (.nil ending)))))))))))))))

/-- The string loses its comma, and the profile is refined as the settings say. -/
theorem withSettingsFile_refines_commented :
    Json.read (plainJson (String.ofList (Text.unifyLines commentedSettings.toList))) =
        .ok (.object [("compilerOptions",
          .object [("outDir", .str "/*\x7d//"), ("esModuleInterop", .bool false)])]) ∧
      ∃ refined, withSettingsFile (settingsFiles commentedSettings.toList) ⟨true, true⟩
          "tsconfig.json" = .ok refined ∧
        Refines ⟨true, true⟩ refined commentedValue ∧ refined = ⟨true, false⟩ := by
  have ascii : ∀ c ∈ commentedSettings.toList, c.toNat < 0x80 := by decide
  have object : ∀ entries w, commentedValue = .map entries →
      Entries.get? "compilerOptions" entries = some w → ∃ options, w = .map options := by
    rintro entries w same found
    cases same
    exact ⟨_, (Option.some.inj found).symm⟩
  have result : ∃ refined, withSettingsFile (settingsFiles commentedSettings.toList) ⟨true, true⟩
      "tsconfig.json" = .ok refined ∧ Refines ⟨true, true⟩ refined commentedValue :=
    withSettingsFile_refines (settingsFiles_readBytes _) (decodeFrom_ascii ascii)
      commentedSettings_written object
  obtain ⟨refined, run, refines⟩ := result
  have awaited := refines.awaited
  have implied := refines.implied _ (.bool false) ⟨_, rfl, rfl⟩ rfl rfl
  refine ⟨by decide +kernel, refined, run, refines, ?_⟩
  cases refined
  cases awaited
  cases implied
  rfl

/-! ## Long integers -/

/-- An integer with one digit more than the reader takes. -/
def longInteger : Number where
  negative := false
  whole := List.replicate (Text.maxDigits + 1) '7'
  fraction := []
  exponent := none
  isWhole := ⟨⟨by simp, fun c member => by rw [List.eq_of_mem_replicate member]; rfl⟩,
    Or.inr (by simp [List.replicate_succ])⟩
  behindPoint := Or.inl rfl

def longTokens : List Token :=
  [.sign '\x7b', .quoted ['x'], .sign ':', .word longInteger.text, .sign '\x7d']

/-- Settings with a long integer, without comments and gaps. -/
def longSettings : List Char := longTokens.flatMap Token.text

theorem laid_tight (ts : List Token) : Laid Gap Ending ts (ts.flatMap Token.text) := by
  induction ts with
  | nil => exact .nil (.gap .nil)
  | cons t ts ih => exact .cons .nil ih

theorem longTokens_writes :
    Writes true none longTokens (.value (.map [(.str "x", .atom longInteger.value)])) := by
  have key : Piece.Spell [.char 'x'] ['x'] := Piece.spell_raw (w := ['x']) (by decide)
  have number : WordWrites none longInteger.text longInteger.value :=
    .number longInteger (fun _ limit none => by cases none)
  exact .object (.member key (.word number)) (Or.inl rfl)

/-- The reader stops at the integer. -/
theorem readPlain_longInteger {rest : List Char} (stops : Stops rest) :
    readPlain (longInteger.text ++ rest) =
      .error (.number (.tooManyDigits (Text.maxDigits + 1))) := by
  have shape : longInteger.text ++ rest = longInteger.whole ++ rest := by
    simp [Number.text, Number.tail, longInteger]
  have first : longInteger.whole = '7' :: List.replicate Text.maxDigits '7' := List.replicate_succ
  have digits : longInteger.whole.length = Text.maxDigits + 1 := List.length_replicate
  have noWord : readPlain (longInteger.whole ++ rest) =
      readUnsigned false (longInteger.whole ++ rest) := by
    rw [first]
    rfl
  have noPoint : readFraction rest = ([], rest) := readFraction_none fun point =>
    stops _ point (by decide)
  rw [shape, noWord, readUnsigned_append false longInteger.isWhole stops.endsDigits, behindWhole,
    noPoint]
  dsimp only
  rw [readExponent_none stops, digits]
  exact (if_pos rfl).trans (if_pos (Nat.lt_succ_self _))

theorem read_longTokens {text : List Char} (laid : Laid Blank Blank longTokens text) :
    Json.read (String.ofList text) = .error (.number (.tooManyDigits (Text.maxDigits + 1))) := by
  have key : Piece.Spell [.char 'x'] ['x'] := Piece.spell_raw (w := ['x']) (by decide)
  have word : (Token.word longInteger.text).Sound :=
    longTokens_writes.sound _ (by simp [longTokens])
  obtain ⟨s, laid, opens⟩ := laid.sign (by decide)
  obtain ⟨q, laid, quoted⟩ := laid.skipSpace (.quoted key)
  obtain ⟨q', laid, colon⟩ := laid.sign (by decide)
  obtain ⟨r, laid, value⟩ := laid.skipSpace word
  have stops : Stops r := laid.stops (stopsValue_sign (by decide))
  have refused (fuel : Nat) : readValue (fuel + 1) (Json.skipSpace q') =
      .error (.number (.tooManyDigits (Text.maxDigits + 1))) := by
    rw [value, Token.text, readValue_word word, readPlain_longInteger stops]
    rfl
  rw [Token.text_quoted_append] at quoted
  have members (fuel : Nat) : readValue (fuel + 3) (Json.skipSpace text) =
      .error (.number (.tooManyDigits (Text.maxDigits + 1))) := by
    rw [opens, readValue_object (by rw [quoted]; simp), quoted,
      readMembers_refused key colon (refused fuel)]
  have enough : ∃ fuel, (Json.skipSpace text).length + 1 = fuel + 3 := by
    have long : 1 < s.length := by
      have dropped : (Json.skipSpace s).length ≤ s.length := (List.dropWhile_suffix _).length_le
      rw [quoted] at dropped
      simp only [List.length_cons, List.length_append] at dropped
      omega
    refine ⟨(Json.skipSpace text).length - 2, ?_⟩
    rw [opens, List.length_cons]
    omega
  obtain ⟨fuel, enough⟩ := enough
  unfold Json.read
  rw [String.toList_ofList]
  dsimp only
  rw [enough, members]
  rfl

theorem longSettings_ascii : ∀ c ∈ longSettings, c.toNat < 0x80 := by
  have token : ∀ t ∈ longTokens, ∀ c ∈ t.text, c.toNat < 0x80 := by
    have number : ∀ c ∈ longInteger.text, c.toNat < 0x80 := fun c member => by
      have range := (longInteger.isWordChar c member).range
      omega
    simp only [longTokens, List.forall_mem_cons]
    exact ⟨by decide, by decide, by decide, number, by decide, by simp⟩
  intro c member
  obtain ⟨t, inside, char⟩ := List.mem_flatMap.mp member
  exact token t inside c char

/-- **A long integer is not harmless**, though it is no option of the compiler. -/
theorem withSettingsFile_tooLong :
    ∃ bytes, (settingsFiles longSettings).readBytes (.ofText "tsconfig.json") = .ok bytes ∧
      Text.decodeFrom .between 0 [] bytes = .ok longSettings ∧
      WrittenWithComments none longSettings (.map [(.str "x", .atom longInteger.value)]) ∧
      withSettingsFile (settingsFiles longSettings) ⟨true, true⟩ "tsconfig.json" =
        .error (.badInteger (.tooManyDigits 4301)) := by
  have holds := settingsFiles_readBytes longSettings
  have decoded := decodeFrom_ascii longSettings_ascii
  have tight := laid_tight longTokens
  have sound := longTokens_writes.sound
  have laid : Laid Blank Blank longTokens (dropTrailingCommas (withoutComments longSettings)) :=
    laid_dropTrailingCommas (laid_withoutComments tight sound) sound
  have read : Json.read (plainJson (String.ofList (Text.unifyLines longSettings))) =
      .error (.number (.tooManyDigits (Text.maxDigits + 1))) := by
    rw [plainJson, String.toList_ofList]
    exact read_longTokens laid
  refine ⟨_, holds, decoded, ⟨_, tight, longTokens_writes⟩, ?_⟩
  rw [withSettingsFile_eq (readText_of_decoded holds decoded), read]
  rfl

end Profile

end ClientForge
