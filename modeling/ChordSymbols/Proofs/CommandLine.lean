import ChordSymbols.CommandLine
import ChordSymbols.Proofs.Outcome
import ChordSymbols.Proofs.Text.Integer

/-!
# What a command line asks for

A long name may be cut down to its dashes and one letter, and to no less, and it
means the option it was cut from. One more option at the end of a command line
acts on the options read so far, so the last of a kind wins, whatever stood in
front. The options that some command line gives are told by two conditions: the
port can be written, and the folder is not two dashes.
-/

namespace ChordSymbols

variable {o o' : Options} {s : Switch} {t : Text} {line : List Text}

/-! ### Names -/

/-- A name, and behind an equals sign the text that it brings. -/
def asArgument (name : Text) : Option Text → Text
  | none => name
  | some v => name ++ '=' :: v

theorem atEquals_asArgument {name : Text} (plain : ∀ c ∈ name, c ≠ '=') (explicit : Option Text) :
    atEquals (asArgument name explicit) = (name, explicit) := by
  have kept : ∀ c ∈ name, decide (c ≠ '=') = true := by simpa using plain
  cases explicit with
  | none =>
    have noSign : name.dropWhile (fun c => decide (c ≠ '=')) = [] :=
      List.dropWhile_eq_nil_iff.mpr kept
    rw [asArgument, atEquals, noSign]
  | some v =>
    unfold asArgument atEquals
    rw [List.dropWhile_append_of_pos kept, List.takeWhile_append_of_pos kept]
    simp

theorem asArgument_atEquals (t : Text) : asArgument (atEquals t).1 (atEquals t).2 = t := by
  unfold atEquals
  split
  · rfl
  · rename_i c rest behind
    have sign : c = '=' := by
      have first := List.head?_dropWhile_not (fun c => decide (c ≠ '=')) t
      rw [behind] at first
      simpa using first
    calc t.takeWhile (· ≠ '=') ++ '=' :: rest
        = t.takeWhile (· ≠ '=') ++ t.dropWhile (· ≠ '=') := by rw [behind, sign]
      _ = t := List.takeWhile_append_dropWhile

/-- The dashes of a name and one letter tell it from the others, and the dashes never do. -/
theorem Switch.filter_prefix_iff (s : Switch) (n : Nat) :
    Switch.all.filter (fun x => (s.name.take n).isPrefixOf x.name) = [s] ↔ 3 ≤ n := by
  have short : ∀ k < 13,
      (Switch.all.filter (fun x => (s.name.take k).isPrefixOf x.name) = [s] ↔ 3 ≤ k) := by
    cases s <;> decide
  have length : s.name.length ≤ 12 := by cases s <;> decide
  by_cases within : n < 13
  · exact short n within
  · have whole : s.name.take n = s.name.take 12 := by
      rw [List.take_of_length_le (by omega), List.take_of_length_le length]
    rw [whole, short 12 (by decide)]
    omega

theorem Switch.name_eq (s : Switch) : ∃ c cs, s.name = '-' :: '-' :: c :: cs := by
  cases s <;> exact ⟨_, _, rfl⟩

theorem Switch.plain_name (s : Switch) : ∀ c ∈ s.name, c ≠ '=' := by
  have all : s.name.all (· ≠ '=') = true := by
    cases s <;> rfl
  intro c member
  exact of_decide_eq_true (List.all_eq_true.mp all c member)

theorem otherDashed_ne_long (t : Text) (explicit : Option Text) :
    otherDashed t ≠ .long s explicit := by
  unfold otherDashed
  split <;> exact (nomatch ·)

theorem cut_of_classified {explicit : Option Text}
    (classified : classifyArgument t = .ok (.long s explicit)) :
    ∃ n, 3 ≤ n ∧ t = asArgument (s.name.take n) explicit := by
  unfold classifyArgument at classified
  split at classified
  case h_2 rest _ =>
    generalize '-' :: '-' :: rest = t at classified ⊢
    dsimp only at classified
    split at classified
    · exact absurd (Except.ok.inj classified) (otherDashed_ne_long t explicit)
    · rename_i found
      cases classified
      have member : s ∈ Switch.all.filter fun x => (atEquals t).1.isPrefixOf x.name := by
        rw [found]
        exact List.mem_singleton_self s
      have front : (atEquals t).1 <+: s.name :=
        List.isPrefixOf_iff_prefix.mp (List.mem_filter.mp member).2
      have cut : (atEquals t).1 = s.name.take (atEquals t).1.length :=
        List.prefix_iff_eq_take.mp front
      refine ⟨(atEquals t).1.length, ?_, ?_⟩
      · rw [← Switch.filter_prefix_iff s, ← cut]
        exact found
      · rw [← cut, asArgument_atEquals]
    · cases classified
  case h_6 => exact absurd (Except.ok.inj classified) (otherDashed_ne_long _ explicit)
  all_goals cases classified

theorem classifyArgument_cut {n : Nat} (long : 3 ≤ n) (s : Switch) (explicit : Option Text) :
    classifyArgument (asArgument (s.name.take n) explicit) = .ok (.long s explicit) := by
  have plain : ∀ c ∈ s.name.take n, c ≠ '=' :=
    fun c member => s.plain_name c (List.mem_of_mem_take member)
  have halves := atEquals_asArgument plain explicit
  have found := (s.filter_prefix_iff n).mpr long
  obtain ⟨c, rest, shape⟩ : ∃ c rest,
      asArgument (s.name.take n) explicit = '-' :: '-' :: c :: rest := by
    obtain ⟨c, cs, name⟩ := s.name_eq
    obtain ⟨k, rfl⟩ : ∃ k, n = k + 3 := ⟨n - 3, by omega⟩
    rw [name]
    cases explicit <;> exact ⟨_, _, rfl⟩
  rw [shape] at halves ⊢
  unfold classifyArgument
  simp only [halves, found]

/-- An argument means an option exactly if it is a cut of its name of three characters or more,
with or without a text. -/
theorem classifyArgument_eq_long_iff {explicit : Option Text} :
    classifyArgument t = .ok (.long s explicit) ↔
      ∃ n, 3 ≤ n ∧ t = asArgument (s.name.take n) explicit := by
  constructor
  · exact cut_of_classified
  · rintro ⟨n, long, rfl⟩
    exact classifyArgument_cut long s explicit

theorem classifyArgument_name (s : Switch) (explicit : Option Text) :
    classifyArgument (asArgument s.name explicit) = .ok (.long s explicit) := by
  have length : 3 ≤ s.name.length := by cases s <;> decide
  have whole := classifyArgument_cut length s explicit
  rwa [List.take_length] at whole

/-! ### Acting on the arguments -/

/-- An option acts, with the value it was given or without one. -/
def Options.act (o : Options) (s : Switch) : Option Text → Except Stop Options
  | none => o.raise s
  | some v => o.set s v

/-- Arguments behind others act on what those left, unless the first of them is a value that
the last option in front would take. -/
theorem actOn_append {bs : List Argument} (apart : ∀ v rest, bs ≠ .value v :: rest)
    (o : Options) (as : List Argument) :
    actOn o (as ++ bs) = do
      let (o, extra) ← actOn o as
      let (o, more) ← actOn o bs
      return (o, extra ++ more) := by
  induction o, as using actOn.induct with
  | case1 o =>
    show actOn o bs = (actOn o bs).map fun r => (r.1, [] ++ r.2)
    cases actOn o bs <;> rfl
  | case2 o s v rest ih => simp [actOn, ih]
  | case3 o s v rest takes ih => simp [actOn, takes, ih]
  | case4 o s v rest takes ih => simp [actOn, takes, ih]
  | case5 o s rest noValue ih =>
    have stillNone : ∀ v more, rest ++ bs = .value v :: more → False := by
      intro v more same
      cases rest with
      | nil => exact apart v more same
      | cons a rest =>
        obtain ⟨rfl, -⟩ := List.cons.inj same
        exact noValue v rest rfl
    rw [List.cons_append, actOn.eq_4 o s _ stillNone, actOn.eq_4 o s _ noValue]
    simp only [ih, bind_assoc]
  | case6 o explicit rest => simp [actOn]; rfl
  | case7 o t rest ih => simp [actOn, ih]
  | case8 o t rest ih => simp [actOn, ih]
  | case9 o rest ih => simp [actOn, ih]

/-- The text of an argument that no option takes. -/
def Argument.leftOver? : Argument → Option Text
  | .value t | .unknown t => some t
  | .separator => some ['-', '-']
  | .long _ _ | .shortHelp _ => none

/-- Arguments that were acted on one by one, the options in the end and what was left over. -/
inductive Acts : Options → List Argument → Options → List Text → Prop where
  | done {o : Options} : Acts o [] o []
  | joined {o o₁ o' : Options} {s : Switch} {v : Text} {as : List Argument} {extra : List Text}
      (set : o.set s v = .ok o₁) (rest : Acts o₁ as o' extra) :
      Acts o (.long s (some v) :: as) o' extra
  | apart {o o₁ o' : Options} {s : Switch} {v : Text} {as : List Argument} {extra : List Text}
      (set : o.set s v = .ok o₁) (rest : Acts o₁ as o' extra) :
      Acts o (.long s none :: .value v :: as) o' extra
  | raised {o o₁ o' : Options} {s : Switch} {as : List Argument} {extra : List Text}
      (raise : o.raise s = .ok o₁) (rest : Acts o₁ as o' extra) :
      Acts o (.long s none :: as) o' extra
  | kept {o o' : Options} {a : Argument} {t : Text} {as : List Argument} {extra : List Text}
      (left : a.leftOver? = some t) (rest : Acts o as o' extra) : Acts o (a :: as) o' (t :: extra)

theorem acts_of_actOn {as : List Argument} {extra : List Text}
    (acted : actOn o as = .ok (o', extra)) : Acts o as o' extra := by
  induction o, as using actOn.induct generalizing o' extra with
  | case1 o =>
    cases acted
    exact .done
  | case2 o s v rest ih =>
    obtain ⟨o₁, set, acted⟩ := bind_eq_ok.mp acted
    exact .joined set (ih o₁ acted)
  | case3 o s v rest takes ih =>
    rw [actOn, if_pos takes] at acted
    obtain ⟨o₁, set, acted⟩ := bind_eq_ok.mp acted
    exact .apart set (ih o₁ acted)
  | case4 o s v rest takes ih =>
    rw [actOn, if_neg takes] at acted
    obtain ⟨o₁, raise, acted⟩ := bind_eq_ok.mp acted
    obtain ⟨r, later, same⟩ := bind_eq_ok.mp acted
    cases same
    exact .raised raise (.kept rfl (ih o₁ later))
  | case5 o s rest noValue ih =>
    rw [actOn.eq_4 o s rest noValue] at acted
    obtain ⟨o₁, raise, acted⟩ := bind_eq_ok.mp acted
    exact .raised raise (ih o₁ acted)
  | case6 o explicit rest => cases acted
  | case7 o t rest ih | case8 o t rest ih | case9 o rest ih =>
    obtain ⟨r, later, same⟩ := bind_eq_ok.mp acted
    cases same
    exact .kept rfl (ih later)

/-- A separator is left over. -/
theorem Acts.separator_left {as : List Argument} {extra : List Text}
    (acts : Acts o as o' extra) (member : .separator ∈ as) : ['-', '-'] ∈ extra := by
  induction acts with
  | done => cases member
  | joined set rest ih | raised raise rest ih =>
    rcases List.mem_cons.mp member with same | later
    · cases same
    · exact ih later
  | apart set rest ih =>
    rcases List.mem_cons.mp member with same | later
    · cases same
    · rcases List.mem_cons.mp later with same | later
      · cases same
      · exact ih later
  | kept left rest ih =>
    rcases List.mem_cons.mp member with rfl | later
    · cases left
      exact List.mem_cons_self
    · exact List.mem_cons_of_mem _ (ih later)

theorem classifyArguments_append {ts us : List Text} {as : List Argument}
    (classified : classifyArguments ts = .ok as) (plain : .separator ∉ as) :
    classifyArguments (ts ++ us) = (classifyArguments us).map (as ++ ·) := by
  induction ts generalizing as with
  | nil =>
    cases classified
    show classifyArguments us = _
    cases classifyArguments us <;> rfl
  | cons t ts ih =>
    rw [classifyArguments] at classified
    obtain ⟨a, argument, classified⟩ := bind_eq_ok.mp classified
    rw [List.cons_append, classifyArguments, argument]
    cases a with
    | separator =>
      cases classified
      exact absurd List.mem_cons_self plain
    | value v | long s e | shortHelp e | unknown v =>
      obtain ⟨as', later, same⟩ := bind_eq_ok.mp classified
      cases same
      have behind := ih later fun member => plain (List.mem_cons_of_mem _ member)
      show (classifyArguments (ts ++ us)).map (_ :: ·) = _
      rw [behind]
      cases classifyArguments us <;> rfl

theorem readOptions_of_classified {as : List Argument}
    (classified : classifyArguments line = .ok as) :
    readOptions line = (do
      let (o, extra) ← actOn {} as
      if extra = [] then return o else .error (.usage (.unrecognized extra))) := by
  rw [readOptions, classified]
  rfl

theorem readOptions_eq_ok :
    readOptions line = .ok o ↔
      ∃ as, classifyArguments line = .ok as ∧ actOn {} as = .ok (o, []) := by
  constructor
  · intro read
    obtain ⟨as, classified, read⟩ := bind_eq_ok.mp read
    obtain ⟨⟨o', extra⟩, acted, read⟩ := bind_eq_ok.mp read
    dsimp only at read
    split at read
    · rename_i nothingLeft
      subst nothingLeft
      cases read
      exact ⟨as, mapError_eq_ok.mp classified, acted⟩
    · cases read
  · rintro ⟨as, classified, acted⟩
    rw [readOptions_of_classified classified, acted]
    rfl

theorem actOn_concat {as : List Argument} {extra : List Text} {explicit : Option Text}
    (acted : actOn o as = .ok (o', extra)) :
    actOn o (as ++ [.long s explicit]) = (o'.act s explicit).map (·, extra) := by
  have alone : actOn o' [.long s explicit] = (o'.act s explicit).map (·, []) := by
    cases explicit with
    | none =>
      rw [actOn.eq_4 o' s [] (fun _ _ => (nomatch ·)), Options.act]
      cases o'.raise s <;> rfl
    | some v =>
      rw [actOn, Options.act]
      cases o'.set s v <;> rfl
  have apart : ∀ v rest, [Argument.long s explicit] ≠ .value v :: rest := fun _ _ => (nomatch ·)
  rw [actOn_append apart, acted]
  show (do let (o, more) ← actOn o' [.long s explicit]; pure (o, extra ++ more)) = _
  rw [alone]
  cases o'.act s explicit with
  | error e => rfl
  | ok o'' => exact congrArg (fun ts => Except.ok (o'', ts)) (List.append_nil extra)

/-- One more option acts on the options that were read. -/
theorem readOptions_concat {explicit : Option Text} (read : readOptions line = .ok o)
    (option : classifyArgument t = .ok (.long s explicit)) :
    readOptions (line ++ [t]) = o.act s explicit := by
  obtain ⟨as, classified, acted⟩ := readOptions_eq_ok.mp read
  have plain : .separator ∉ as := fun member => nomatch (acts_of_actOn acted).separator_left member
  have one : classifyArguments [t] = .ok [.long s explicit] := by
    rw [classifyArguments, option]
    rfl
  have all : classifyArguments (line ++ [t]) = .ok (as ++ [.long s explicit]) := by
    rw [classifyArguments_append classified plain, one]
    rfl
  rw [readOptions_of_classified all, actOn_concat acted]
  cases o.act s explicit <;> rfl

/-- The last value of an option wins over the one before. -/
theorem Options.set_set {v w : Text} (set : o.set s v = .ok o') : o'.set s w = o.set s w := by
  cases s with
  | help | debug => cases set
  | transport | port | outputFolder =>
    obtain ⟨x, -, rfl⟩ := map_eq_ok.mp set
    rfl

theorem readOptions_last_wins {v w : Text} (read : readOptions line = .ok o)
    (again : readOptions (line ++ [asArgument s.name (some v)]) = .ok o') :
    readOptions (line ++ [asArgument s.name (some v)] ++ [asArgument s.name (some w)]) =
      readOptions (line ++ [asArgument s.name (some w)]) := by
  have set : o.set s v = .ok o' := by
    rw [← again, readOptions_concat read (classifyArgument_name s (some v)), Options.act]
  calc readOptions (line ++ [asArgument s.name (some v)] ++ [asArgument s.name (some w)])
      = o'.set s w := readOptions_concat again (classifyArgument_name s (some w))
    _ = o.set s w := Options.set_set set
    _ = readOptions (line ++ [asArgument s.name (some w)]) :=
        (readOptions_concat read (classifyArgument_name s (some w))).symm

/-! ### The options that can be given -/

/-- What holds of the options that were read. -/
structure Options.Sensible (o : Options) : Prop where
  port : ∀ n, o.port = .value n → isShowable n = true
  folder : o.outputFolder ≠ some (.value ['-', '-'])

theorem given_eq_value {α : Type} {read : Text → Except UsageError α} {v : Text} {a : α}
    (gave : given read v = .ok (.value a)) : v ≠ ['-', '-'] ∧ read v = .ok a := by
  unfold given at gave
  split at gave
  · cases gave
  · rename_i other
    obtain ⟨b, value, same⟩ := map_eq_ok.mp (mapError_eq_ok.mp gave)
    cases same
    exact ⟨other, value⟩

theorem Options.Sensible.set {v : Text} (sensible : o.Sensible) (set : o.set s v = .ok o') :
    o'.Sensible := by
  cases s with
  | help | debug => cases set
  | transport =>
    obtain ⟨x, -, rfl⟩ := map_eq_ok.mp set
    exact ⟨sensible.port, sensible.folder⟩
  | port =>
    obtain ⟨x, gave, rfl⟩ := map_eq_ok.mp set
    refine ⟨fun n same => ?_, sensible.folder⟩
    obtain rfl : x = .value n := same
    have whole := (given_eq_value gave).2
    unfold readPort at whole
    split at whole
    · rename_i number
      cases whole
      exact isShowable_of_integer? number
    · cases whole
  | outputFolder =>
    obtain ⟨x, gave, rfl⟩ := map_eq_ok.mp set
    refine ⟨sensible.port, fun same => ?_⟩
    obtain rfl : x = .value ['-', '-'] := Option.some.inj same
    obtain ⟨other, value⟩ := given_eq_value gave
    exact other (Except.ok.inj value)

theorem Options.Sensible.raise (sensible : o.Sensible) (raise : o.raise s = .ok o') :
    o'.Sensible := by
  cases s with
  | debug =>
    cases raise
    exact ⟨sensible.port, sensible.folder⟩
  | help | transport | port | outputFolder => cases raise

theorem Acts.sensible {as : List Argument} {extra : List Text} (acts : Acts o as o' extra)
    (sensible : o.Sensible) : o'.Sensible := by
  induction acts with
  | done => exact sensible
  | joined set rest ih | apart set rest ih => exact ih (sensible.set set)
  | raised raise rest ih => exact ih (sensible.raise raise)
  | kept left rest ih => exact ih sensible

theorem sensible_default : ({} : Options).Sensible :=
  ⟨fun _ same => Given.value.inj same ▸ isShowable_of_integer? (t := "8000".toList) rfl,
    (nomatch ·)⟩

/-- The text that gives a value, or nothing. -/
def Given.text {α : Type} (shown : α → Text) : Given α → Text
  | .value a => shown a
  | .void => ['-', '-']

/-- A command line for the options, each with its full name. -/
def Options.arguments (o : Options) : List Text :=
  [asArgument Switch.transport.name (some (o.transport.text fun x => x.name.toList)),
    asArgument Switch.port.name (some (o.port.text decimalText))] ++
  (o.outputFolder.map fun g => asArgument Switch.outputFolder.name (some (g.text id))).toList ++
  if o.debug then [Switch.debug.name] else []

theorem given_text {α : Type} {read : Text → Except UsageError α} {shown : α → Text}
    {g : Given α} (back : ∀ a, g = .value a → shown a ≠ ['-', '-'] ∧ read (shown a) = .ok a) :
    given read (g.text shown) = .ok g := by
  cases g with
  | void => rfl
  | value a =>
    obtain ⟨other, value⟩ := back a rfl
    rw [Given.text, given, if_neg other, value]
    rfl

theorem readTransport_name (x : Transport) :
    x.name.toList ≠ ['-', '-'] ∧ readTransport x.name.toList = .ok x := by
  cases x <;> exact ⟨by decide, rfl⟩

theorem readPort_decimalText {n : Int} (few : isShowable n = true) :
    decimalText n ≠ ['-', '-'] ∧ readPort (decimalText n) = .ok n := by
  have back := integer?_decimalText few
  refine ⟨fun same => ?_, by rw [readPort, back]⟩
  rw [same] at back
  cases back

/-- The values behind the equals signs are read as they were written, each behind any line. -/
theorem readOptions_transport (read : readOptions line = .ok o) (x : Given Transport) :
    readOptions (line ++ [asArgument Switch.transport.name (some (x.text fun x => x.name.toList))]) =
      .ok { o with transport := x } := by
  rw [readOptions_concat read (classifyArgument_name _ _), Options.act, Options.set,
    given_text fun y _ => readTransport_name y]
  rfl

theorem readOptions_port (read : readOptions line = .ok o) {x : Given Int}
    (few : ∀ n, x = .value n → isShowable n = true) :
    readOptions (line ++ [asArgument Switch.port.name (some (x.text decimalText))]) =
      .ok { o with port := x } := by
  rw [readOptions_concat read (classifyArgument_name _ _), Options.act, Options.set,
    given_text fun n same => readPort_decimalText (few n same)]
  rfl

theorem readOptions_folder (read : readOptions line = .ok o) {x : Given Text}
    (other : x ≠ .value ['-', '-']) :
    readOptions (line ++ [asArgument Switch.outputFolder.name (some (x.text id))]) =
      .ok { o with outputFolder := some x } := by
  have back : ∀ t, x = .value t →
      id t ≠ ['-', '-'] ∧ (Except.ok (id t) : Except UsageError Text) = .ok t := by
    rintro t rfl
    exact ⟨fun same => other (congrArg Given.value same), rfl⟩
  rw [readOptions_concat read (classifyArgument_name _ _), Options.act, Options.set,
    given_text back]
  rfl

theorem readOptions_arguments (sensible : o.Sensible) : readOptions o.arguments = .ok o := by
  obtain ⟨transport, port, folder, debug⟩ := o
  have empty : readOptions [] = .ok {} := rfl
  have first := readOptions_transport empty transport
  have second := readOptions_port first sensible.port
  have third : readOptions (Options.arguments ⟨transport, port, folder, false⟩) =
      .ok ⟨transport, port, folder, false⟩ := by
    cases folder with
    | none => exact second
    | some g => exact readOptions_folder second fun same => sensible.folder (congrArg some same)
  cases debug with
  | false => exact third
  | true =>
    have flag := readOptions_concat third (classifyArgument_name .debug none)
    rwa [Options.arguments, if_neg Bool.false_ne_true, List.append_nil] at flag

/-- The options that some command line gives are the sensible ones. -/
theorem readOptions_reaches_iff : (∃ line, readOptions line = .ok o) ↔ o.Sensible := by
  constructor
  · rintro ⟨line, read⟩
    obtain ⟨as, -, acted⟩ := readOptions_eq_ok.mp read
    exact (acts_of_actOn acted).sensible sensible_default
  · intro sensible
    exact ⟨o.arguments, readOptions_arguments sensible⟩

end ChordSymbols
