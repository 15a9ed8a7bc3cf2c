import RocprofTool.Lib.Json
import RocprofTool.Version1.MessageBuffer

/-!
# The messages as JSON

A message looks like an object, whose `perf-data` is an array of one object with the name of the
kernel, the index of the dispatch and the features.  It is not one, for any entry: there is no
message from which a reader gets back what has been put in (`not_publishesJson`).

* The features come between quotes, all of them together with their values, as if they were one
  name, and nothing comes after it; also when there are none.
* The object is closed before the second `snprintf`, which goes on with more members of it, or at
  least closes it once more.

Names are not escaped, so that a kernel or a feature can have a name that makes a well-formed text
of it.  But then it cannot be read back as well: all that is in a message beside the names is free
of backslashes, and a text of which the strings with backslashes are just those to be read from it
cannot have any.  Without a backslash, the names have no quotes, so that the features are one string
and a brace comes after it (`not_parses`).
-/

set_option autoImplicit false

open Json

namespace Version1

/-! ## What should be read -/

/-- All that is printed for a message, however large the buffer is. -/
def wholeText (m : Machine) (entry : ContextEntry) (record : Option DispatchRecord) :
    Except Fault (List Char) := do
  let name ← nikName m entry
  match entry.group, m.devIndex entry.agent with
  | none, _ => .error .undefined
  | some _, none => .error .undefined
  | some context, some gpuId =>
    let results ← outputResults m entry.features (m.metrics context)
    return bodyOf m entry gpuId name results ++ [' '] ++ messageTail record

/-- The text is well formed, and what has been put in can be read from it: there are members for the
name of the kernel, for the index and for all features with their values, wherever they are. -/
def ReadsBack (m : Machine) (entry : ContextEntry) (text : List Char) : Prop :=
  ∃ root, Parses text root ∧
    (∀ name, nikName m entry = .ok name →
      Value.HasMember "kernel name".toList (.string name) root) ∧
    Value.HasMember "dispatch".toList (.number (decimal entry.index.toNat)) root ∧
    ∀ context, entry.group = some context →
      ∀ (i : ℕ) (feature : List Char), entry.features[i]? = some feature →
        ∃ d value, (m.metrics context)[i]? = some d ∧ d.print m = some value ∧
          Value.HasMember feature (.number value) root

/-- There is a message for the entry, and it can be read. -/
def PublishesJson (m : Machine) (entry : ContextEntry) (record : Option DispatchRecord) : Prop :=
  ∃ text, message m entry record = .ok text ∧ ReadsBack m entry text

/-- Numbers are printed with digits, signs, points and letters. -/
structure PrintsNumbers (m : Machine) : Prop where
  time : ∀ time, (m.printTime time).all isTokenChar = true
  double : ∀ bits, (m.printDouble bits).all isTokenChar = true

/-! ## The shape of a message -/

theorem isTokenChar_of_isDigit {c : Char} (h : c.isDigit = true) : isTokenChar c = true := by
  rw [isTokenChar, Char.isAlphanum, h, Bool.or_true, Bool.true_or, Bool.true_or, Bool.true_or]

theorem decimal_all (n : ℕ) : (decimal n).all isTokenChar = true := by
  rw [List.all_eq_true]
  intro c hc
  exact isTokenChar_of_isDigit (Nat.isDigit_of_mem_toDigits (by decide) (by decide) hc)

theorem isSpecial_of_isTokenChar {c : Char} (h : isTokenChar c = true) : isSpecial c = false := by
  by_contra hspecial
  rw [Bool.not_eq_false, isSpecial, Bool.or_eq_true] at hspecial
  rcases hspecial with hc | hc
  all_goals
    rw [eq_of_beq hc] at h
    exact absurd h (by decide)

theorem print_all {m : Machine} (hprint : PrintsNumbers m) {d : Data} {value : List Char}
    (h : d.print m = some value) : value.all isTokenChar = true := by
  cases d with
  | int64 v =>
    cases h
    exact decimal_all _
  | double bits =>
    cases h
    exact hprint.double bits
  | other => cases h

/-- What comes after the quote that ends the features. -/
def closing (tail : List Char) : List Char := ' ' :: '}' :: ' ' :: ']' :: ' ' :: '}' :: ' ' :: tail

/-- The features between their quotes, and what comes after them. -/
def featuresPart (results tail : List Char) : List Char :=
  ' ' :: '"' :: (results ++ '"' :: closing tail)

/-- What comes after the quote that ends the name of the kernel. -/
def indexPart (index results tail : List Char) : List Char :=
  ',' :: ' ' :: '"' :: ("dispatch".toList ++ '"' :: ':' :: ' ' ::
    (index ++ ',' :: featuresPart results tail))

/-- What comes after the brace that opens the object with the features. -/
def perfPart (name index results tail : List Char) : List Char :=
  ' ' :: '"' :: ("kernel name".toList ++ '"' :: ' ' :: ':' :: ' ' :: '"' ::
    (name ++ '"' :: indexPart index results tail))

/-- The text, taken apart where a reader takes it apart. -/
theorem messageBody_eq (gpuId time name index results tail : List Char) :
    messageBody gpuId time name index results ++ [' '] ++ tail
      = '{' :: ' ' :: '"' :: ("gpu-id".toList ++ '"' :: ':' :: (gpuId ++ ',' :: ' ' :: '"' ::
        ("timestamp (ms)".toList ++ '"' :: ':' :: (time ++ ',' :: ' ' :: '"' ::
        ("perf-data".toList ++ '"' :: ':' :: ' ' :: '[' :: ' ' :: '{' ::
          perfPart name index results tail))))) := by
  unfold messageBody perfPart indexPart featuresPart closing
  rw [show "\x7b \"gpu-id\":".toList = ['{', ' ', '"'] ++ "gpu-id".toList ++ ['"', ':'] by decide]
  rw [show " \"timestamp (ms)\":".toList
    = [' ', '"'] ++ "timestamp (ms)".toList ++ ['"', ':'] by decide]
  rw [show ", \"perf-data\": [ \x7b ".toList
    = [',', ' ', '"'] ++ "perf-data".toList ++ ['"', ':', ' ', '[', ' ', '{', ' '] by decide]
  rw [show "\"kernel name\" : \"".toList
    = ['"'] ++ "kernel name".toList ++ ['"', ' ', ':', ' ', '"'] by decide]
  rw [show ", \"dispatch\": ".toList
    = [',', ' ', '"'] ++ "dispatch".toList ++ ['"', ':', ' '] by decide]
  rw [show "\"".toList = ['"'] by decide]
  rw [show ",".toList = [','] by decide]
  rw [show ", \"".toList = [',', ' ', '"'] by decide]
  rw [show "\" \x7d ] \x7d".toList = ['"', ' ', '}', ' ', ']', ' ', '}'] by decide]
  simp only [List.append_assoc, List.cons_append, List.nil_append]

/-! ## Names without quotes -/

section Reading

variable {fuel : ℕ} {gpuId time name index results tail rest : List Char} {root : Value}

theorem expect_closing (c : Char) (h : c ≠ '}') : expect c (closing tail) = none := by
  rw [expect, closing, skip_cons, if_pos (by decide), skip_cons, if_neg (by decide)]
  exact if_neg h.symm

/-- The features are one string, and there is a brace after it and no colon. -/
theorem members_featuresPart (hresults : ∀ c ∈ results, isSpecial c = false) :
    members fuel (featuresPart results tail) = none := by
  rw [Option.eq_none_iff_forall_ne_some]
  rintro ⟨ms, rest⟩ h
  cases fuel with
  | zero => cases h
  | succ fuel =>
    obtain ⟨r₀, key, r₁, r₂, v, r₃, hquote, hkey, hcolon, -⟩ := of_members h
    rw [expect_eq_some, featuresPart, skip_cons, if_pos (by decide), skip_cons,
      if_neg (by decide), List.cons.injEq] at hquote
    obtain ⟨-, rfl⟩ := hquote
    rw [rest_of_string hresults hkey, expect_closing ':' (by decide)] at hcolon
    cases hcolon

/-- The object with the features is read up to them. -/
theorem members_perfPart (hname : ∀ c ∈ name, isSpecial c = false)
    (hindex : index.all isTokenChar = true) (hresults : ∀ c ∈ results, isSpecial c = false) :
    members fuel (perfPart name index results tail) = none := by
  rw [Option.eq_none_iff_forall_ne_some]
  rintro ⟨ms, rest⟩ h
  obtain ⟨fuel₁, v₁, r₁, h₁, hrest⟩ := of_members_key (by decide) rfl rfl h
  have hr₁ : r₁ = indexPart index results tail := by
    cases fuel₁ with
    | zero => cases h₁
    | succ fuel₁ =>
      rw [value_string (r := _) rfl, Option.map_eq_some_iff] at h₁
      obtain ⟨⟨s, r⟩, hs, heq⟩ := h₁
      cases heq
      exact rest_of_string hname hs
  subst hr₁
  rcases hrest with ⟨r₂, ms', h₂, hms', rfl⟩ | ⟨hend, -⟩
  · rw [expect_eq_some, indexPart, skip_cons, if_neg (by decide), List.cons.injEq] at h₂
    obtain ⟨-, rfl⟩ := h₂
    have hcolon : skip (':' :: ' ' :: (index ++ ',' :: featuresPart results tail))
      = ':' :: ' ' :: (index ++ ',' :: featuresPart results tail) := rfl
    obtain ⟨fuel₂, v₂, ms, h₂, rfl⟩ := of_members_token (by decide) rfl hcolon hindex rfl hms'
    rw [members_featuresPart hresults] at h₂
    cases h₂
  · rw [expect_eq_some, indexPart, skip_cons, if_neg (by decide), List.cons.injEq] at hend
    exact absurd hend.1 (by decide)

/-- The array is read up to the object with the features. -/
theorem value_perfPart (h : ∀ fuel, members fuel (perfPart name index results tail) = none) :
    value fuel (' ' :: '[' :: ' ' :: '{' :: perfPart name index results tail) = none := by
  cases fuel with
  | zero => rfl
  | succ fuel =>
    rw [value_array (r := _) rfl rfl, Option.map_eq_none_iff]
    cases fuel with
    | zero => rfl
    | succ fuel =>
      rw [elements]
      cases fuel with
      | zero => rfl
      | succ fuel =>
        rw [value_object (r := _) rfl rfl, h fuel]
        rfl

/-- **A message is not well formed** if there are no quotes and no backslashes in the names. -/
theorem not_parses (hgpuId : gpuId.all isTokenChar = true) (htime : time.all isTokenChar = true)
    (hname : ∀ c ∈ name, isSpecial c = false) (hindex : index.all isTokenChar = true)
    (hresults : ∀ c ∈ results, isSpecial c = false) (v : Value) :
    ¬Parses (messageBody gpuId time name index results ++ [' '] ++ tail) v := by
  rintro ⟨fuel, rest, h, -⟩
  rw [messageBody_eq] at h
  cases fuel with
  | zero => cases h
  | succ fuel =>
    rw [value_object (r := _) rfl rfl, Option.map_eq_some_iff] at h
    obtain ⟨⟨ms, r⟩, hms, -⟩ := h
    obtain ⟨fuel₁, v₁, ms₁, h₁, -⟩ := of_members_token (by decide) rfl rfl hgpuId rfl hms
    obtain ⟨fuel₂, v₂, ms₂, h₂, -⟩ := of_members_token (by decide) rfl rfl htime rfl h₁
    obtain ⟨fuel₃, v₃, r₃, h₃, -⟩ := of_members_key (by decide) rfl rfl h₂
    rw [value_perfPart fun fuel ↦ members_perfPart hname hindex hresults] at h₃
    cases h₃

end Reading

/-! ## Names that are read back -/

theorem not_mem_of_all {text : List Char} (h : text.all isTokenChar = true) : '\\' ∉ text := by
  intro hback
  exact absurd (List.all_eq_true.mp h _ hback) (by decide)

theorem not_mem_messageTail (record : Option DispatchRecord) : '\\' ∉ messageTail record := by
  cases record with
  | none => decide
  | some record =>
    have hfield : ∀ {text label : List Char} (n : ℕ), '\\' ∉ text → '\\' ∉ label →
        '\\' ∉ text ++ label ++ decimal n := fun n htext hlabel ↦
      List.not_mem_append (List.not_mem_append htext hlabel) (not_mem_of_all (decimal_all n))
    have hdispatch : '\\' ∉ ", \"dispatch_time\":".toList ++ decimal record.dispatch.toNat :=
      List.not_mem_append (by decide) (not_mem_of_all (decimal_all _))
    have hstart := hfield record.start.toNat hdispatch
      (show '\\' ∉ ", \"start\":".toList by decide)
    have hfinish := hfield record.finish.toNat hstart
      (show '\\' ∉ ", \"end\":".toList by decide)
    have hcomplete := hfield record.complete.toNat hfinish
      (show '\\' ∉ ", \"dispatch_end\":".toList by decide)
    exact List.not_mem_append hcomplete (by decide)

section Words

variable {gpuId time name index results tail w : List Char}

/-- What comes before the quote that opens the name of the kernel. -/
def headPart (gpuId time : List Char) : List Char :=
  '{' :: ' ' :: '"' :: ("gpu-id".toList ++ '"' :: ':' :: (gpuId ++ ',' :: ' ' :: '"' ::
    ("timestamp (ms)".toList ++ '"' :: ':' :: (time ++ ',' :: ' ' :: '"' :: ("perf-data".toList
      ++ '"' :: ':' :: ' ' :: '[' :: ' ' :: '{' :: ' ' :: '"' :: ("kernel name".toList
        ++ '"' :: ' ' :: ':' :: [' ']))))))

/-- The text, taken apart at the names. -/
theorem messageBody_eq_headPart :
    messageBody gpuId time name index results ++ [' '] ++ tail
      = headPart gpuId time ++ '"' :: (name ++ '"' :: (',' :: ' ' :: '"' :: ("dispatch".toList
        ++ '"' :: ':' :: ' ' :: (index ++ [',', ' '])) ++ '"' :: (results ++ '"' :: closing tail)))
      := by
  rw [messageBody_eq]
  simp only [headPart, perfPart, indexPart, featuresPart, List.append_assoc, List.cons_append,
    List.nil_append]

/-- **A word of a message** is one of the name of the kernel or of the features. -/
theorem isInfix_of_message (hgpuId : gpuId.all isTokenChar = true)
    (htime : time.all isTokenChar = true) (hindex : index.all isTokenChar = true)
    (htail : '\\' ∉ tail) (hword : IsWord w)
    (hw : w <:+: messageBody gpuId time name index results ++ [' '] ++ tail) :
    w <:+: name ∨ w <:+: results := by
  have hgpuId := not_mem_of_all hgpuId
  have htime := not_mem_of_all htime
  have hindex := not_mem_of_all hindex
  have hquote : '"'.toNat ∈ marks := by decide
  rw [messageBody_eq_headPart] at hw
  have hafter := hword.isInfix_of_not_mem hquote (by simp [headPart, hgpuId, htime]) hw
  refine (hword.isInfix_or_isInfix hquote hafter).imp_right fun hindexPart ↦ ?_
  have hfeatures := hword.isInfix_of_not_mem hquote (by simp [hindex]) hindexPart
  refine (hword.isInfix_or_isInfix hquote hfeatures).resolve_right (hword.not_isInfix ?_)
  simp [closing, htail]

/-- **A word of the features** is one of a name. -/
theorem isInfix_of_outputResults {m : Machine} (hprint : PrintsNumbers m)
    {features : List (List Char)} {data : List Data} {value : List Char}
    (hvalue : '\\' ∉ value) (h : outputResults m features data = .ok results)
    (hword : IsWord w) (hw : w <:+: value ++ results) : ∃ feature ∈ features, w <:+: feature := by
  induction features generalizing data results value with
  | nil =>
    cases h
    rw [List.append_nil] at hw
    exact absurd hw (hword.not_isInfix hvalue)
  | cons name features ih =>
    obtain ⟨d, data, value', str, rfl, hv, hstr, rfl⟩ := of_outputResults_cons h
    have hshape : value ++ (outputFeature name value' ++ str)
        = value ++ ',' :: ([] ++ ' ' :: (name ++ ':' :: (value' ++ str))) := by
      simp [outputFeature]
    rw [hshape] at hw
    have hblank := hword.isInfix_of_not_mem (by decide) hvalue hw
    have hname := hword.isInfix_of_not_mem (by decide) List.not_mem_nil hblank
    rcases hword.isInfix_or_isInfix (by decide) hname with hname | hrest
    · exact ⟨name, List.mem_cons_self, hname⟩
    · obtain ⟨feature, hmem, hfeature⟩ := ih (not_mem_of_all (print_all hprint hv)) hstr hrest
      exact ⟨feature, List.mem_cons_of_mem _ hmem, hfeature⟩

/-- What is special in the features is so in a name. -/
theorem isSpecial_of_outputResults {m : Machine} (hprint : PrintsNumbers m)
    {features : List (List Char)} {data : List Data}
    (h : outputResults m features data = .ok results)
    (hfeatures : ∀ feature ∈ features, ∀ c ∈ feature, isSpecial c = false) :
    ∀ c ∈ results, isSpecial c = false := by
  induction features generalizing data results with
  | nil =>
    cases h
    simp
  | cons name features ih =>
    obtain ⟨hname, hfeatures⟩ := List.forall_mem_cons.mp hfeatures
    obtain ⟨d, data, value, str, rfl, hv, hstr, rfl⟩ := of_outputResults_cons h
    have hvalue : ∀ c ∈ value, isSpecial c = false := fun c hc ↦
      isSpecial_of_isTokenChar (List.all_eq_true.mp (print_all hprint hv) c hc)
    have hcomma : ∀ c ∈ ", ".toList, isSpecial c = false := by simp [isSpecial]
    have hcolon : ∀ c ∈ ":".toList, isSpecial c = false := by simp [isSpecial]
    simp only [outputFeature, List.forall_mem_append]
    exact ⟨⟨⟨⟨hcomma, hname⟩, hcolon⟩, hvalue⟩, ih hstr hfeatures⟩

end Words

/-! ## No message -/

theorem of_wholeText {m : Machine} {entry : ContextEntry} {record : Option DispatchRecord}
    {text : List Char} (h : wholeText m entry record = .ok text) :
    ∃ name context gpuId results, nikName m entry = .ok name ∧ entry.group = some context ∧
      m.devIndex entry.agent = some gpuId ∧
      outputResults m entry.features (m.metrics context) = .ok results ∧
      text = bodyOf m entry gpuId name results ++ [' '] ++ messageTail record := by
  rw [wholeText] at h
  cases hname : nikName m entry with
  | error e => simp [hname, bind, Except.bind] at h
  | ok name =>
    cases hgroup : entry.group with
    | none => simp [hname, hgroup, bind, Except.bind] at h
    | some context =>
      cases hgpu : m.devIndex entry.agent with
      | none => simp [hname, hgroup, hgpu, bind, Except.bind] at h
      | some gpuId =>
        cases hresults : outputResults m entry.features (m.metrics context) with
        | error e => simp [hname, hgroup, hgpu, hresults, bind, Except.bind] at h
        | ok results =>
          simp only [hname, hgroup, hgpu, hresults, bind, Except.bind, pure, Except.pure,
            Except.ok.injEq] at h
          exact ⟨name, context, gpuId, results, rfl, rfl, rfl, hresults, h.symm⟩

/-- **What fits into the buffer is published as it is.** -/
theorem message_eq_wholeText {m : Machine} {entry : ContextEntry} {record : Option DispatchRecord}
    {text : List Char} (hwhole : wholeText m entry record = .ok text)
    (hfits : text.length < bufferSize) : message m entry record = .ok text := by
  obtain ⟨name, context, gpuId, results, hname, hgroup, hgpu, hresults, rfl⟩ :=
    of_wholeText hwhole
  rw [List.length_append] at hfits
  rw [message_eq hname hgroup hgpu hresults, printBuffer_ok_iff, printed,
    List.take_of_length_le, List.take_of_length_le]
  · exact ⟨by omega, rfl⟩
  · omega
  · omega

/-- **What is put together without escapes cannot be read back.** -/
theorem not_readsBack {m : Machine} {entry : ContextEntry} {record : Option DispatchRecord}
    {text : List Char} (hprint : PrintsNumbers m) (hwhole : wholeText m entry record = .ok text) :
    ¬ReadsBack m entry text := by
  rintro ⟨root, hparses, hname, -, hfeatures⟩
  obtain ⟨name, context, gpuId, results, hnik, hgroup, -, hresults, rfl⟩ := of_wholeText hwhole
  have hquoted : ∀ s ∈ name :: entry.features,
      Quoted (bodyOf m entry gpuId name results ++ [' '] ++ messageTail record) s := by
    intro s hs
    rcases List.mem_cons.mp hs with rfl | hs
    · exact hparses.quoted ((hname s hnik).has .string)
    · obtain ⟨i, hi⟩ := List.mem_iff_getElem?.mp hs
      obtain ⟨d, value, -, -, hmember⟩ := hfeatures context hgroup i s hi
      exact hparses.quoted hmember.has_key
  -- all words of the text are from the strings, so that there are none
  have hback := not_mem_of_quoted hquoted fun w hword hw ↦ by
    rcases isInfix_of_message (decimal_all _) (hprint.time _) (decimal_all _)
      (not_mem_messageTail record) hword hw with hw | hw
    · exact ⟨name, List.mem_cons_self, hw⟩
    · obtain ⟨feature, hmem, hfeature⟩ :=
        isInfix_of_outputResults hprint List.not_mem_nil hresults hword hw
      exact ⟨feature, List.mem_cons_of_mem _ hmem, hfeature⟩
  have hspecial : ∀ s ∈ name :: entry.features, ∀ c ∈ s, isSpecial c = false :=
    fun s hs ↦ isSpecial_of_quoted hback (hquoted s hs)
  obtain ⟨hnameSpecial, hfeaturesSpecial⟩ := List.forall_mem_cons.mp hspecial
  exact not_parses (decimal_all _) (hprint.time _) hnameSpecial (decimal_all _)
    (isSpecial_of_outputResults hprint hresults hfeaturesSpecial) root hparses

/-- **No message can be read back**, whatever the names are and whether there is a record or not:
there is no value to the features, and the object does not end where its text does. -/
theorem not_publishesJson {m : Machine} {entry : ContextEntry} {record : Option DispatchRecord}
    {text : List Char} (hprint : PrintsNumbers m) (hwhole : wholeText m entry record = .ok text)
    (hfits : text.length < bufferSize) : ¬PublishesJson m entry record := by
  rintro ⟨text', htext', hreads⟩
  rw [message_eq_wholeText hwhole hfits, Except.ok.injEq] at htext'
  exact not_readsBack hprint hwhole (htext' ▸ hreads)

/-- What is printed about a kernel `axpy` with one feature. -/
def axpyText (record : Option DispatchRecord) : List Char :=
  bodyOf oneCounter (entryFor "axpy".toList (some 7)) 0 "axpy".toList ", SQ_WAVES:5".toList
    ++ [' '] ++ messageTail record

theorem wholeText_axpy (record : Option DispatchRecord) :
    wholeText oneCounter (entryFor "axpy".toList (some 7)) record = .ok (axpyText record) := rfl

theorem printsNumbers_oneCounter : PrintsNumbers oneCounter := by
  refine ⟨fun time ↦ ?_, fun _ ↦ rfl⟩
  show (decimal time.toNat ++ ".000000".toList).all isTokenChar = true
  rw [List.all_append, decimal_all]
  decide

theorem not_publishesJson_axpy :
    PrintsNumbers oneCounter ∧ (axpyText (some ⟨1, 2, 3, 4⟩)).length < bufferSize ∧
      ¬PublishesJson oneCounter (entryFor "axpy".toList (some 7)) (some ⟨1, 2, 3, 4⟩) := by
  have hfits : (axpyText (some ⟨1, 2, 3, 4⟩)).length < bufferSize := by decide +kernel
  exact ⟨printsNumbers_oneCounter, hfits,
    not_publishesJson printsNumbers_oneCounter (wholeText_axpy _) hfits⟩

/-- **The message about `axpy`**, without a record, is published and is not well formed. -/
theorem axpy_not_json :
    message oneCounter (entryFor "axpy".toList (some 7)) none = .ok (axpyText none) ∧
      axpyText none
        = "\x7b \"gpu-id\":0, \"timestamp (ms)\":0.000000, \"perf-data\": [ ".toList
          ++ "\x7b \"kernel name\" : \"axpy\", \"dispatch\": 0, ".toList
          ++ "\", SQ_WAVES:5\" \x7d ] \x7d  \x7d\n".toList ∧
      (∀ v, ¬Parses (axpyText none) v) ∧
      ¬PublishesJson oneCounter (entryFor "axpy".toList (some 7)) none := by
  have hmessage := message_eq_wholeText (wholeText_axpy none) (by decide +kernel)
  have hparses : ∀ v, ¬Parses (axpyText none) v :=
    not_parses (decimal_all _) (printsNumbers_oneCounter.time _) (by simp [isSpecial])
      (decimal_all _) (by simp [isSpecial])
  refine ⟨hmessage, by decide +kernel, hparses, ?_⟩
  rintro ⟨text, htext, root, hroot, -⟩
  rw [hmessage, Except.ok.injEq] at htext
  exact hparses root (htext ▸ hroot)

end Version1
