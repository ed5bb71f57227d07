import TextAnalysis.Stemming.Ending

/-!
# Greek stems

The stems of Greek words. Capitals and accents are dropped first. The rules then follow one another:
each takes endings off and puts some letters back after the stems that need them. Where no rule but
those for the plural of nouns has applied, a plain ending goes too.
-/

set_option autoImplicit false

namespace TextAnalysis.Stemming.Greek

/-- Capital and accented letters, and the plain small letters that take their place. -/
def plain : List (Char × Char) :=
  "ΑΒΓΔΕΖΗΘΙΚΛΜΝΞΟΠΡΣΤΥΦΧΨΩΆΈΉΊΌΎΏάέήίόύώΪΫϊϋΐΰς".toList.zip
    "αβγδεζηθικλμνξοπρστυφχψωαεηιουωαεηιουωιυιυιυσ".toList

/-- The vowels. -/
def isVowel : Char → Bool := oneOf "αεηιουω"

/-- The vowels without upsilon. -/
def isClearVowel : Char → Bool := oneOf "αεηιοω"

/-- Is the word one of those listed? -/
def isOneOf (words : String) : Back → Bool :=
  let listed := (Text.fields words).map fun s => s.toList.reverse
  fun w => listed.contains w

/-- Does the word end like one of those listed? -/
def endsInOneOf (words : String) : Back → Bool :=
  let table := Endings.ofGroup words remove
  fun w => (table.longest? 0 w).isSome

/-- Takes endings off, and puts letters back after the stems of the first class that fits. -/
def rule (endings : String) (backs : List ((Back → Bool) × String)) : Step :=
  let table := Endings.ofGroup endings remove
  let backs := backs.map fun b => (b.1, b.2.toList.reverse)
  fun _ w =>
    (table.longest? 0 w).map fun found =>
      match backs.find? fun b => b.1 found.2 with
      | some b => b.2 ++ found.2
      | none => found.2

/-- A single word and its stem. -/
def single (word : String) (letters : String) : Step :=
  let word := word.toList.reverse
  let letters := letters.toList.reverse
  fun _ w => if w = word then some letters else none

/-- Nouns whose stem is shorter than their endings tell. -/
def nouns : Endings := .ofGroups
  [("φαγια φαγιου φαγιων", replace "φα"), ("σκαγια σκαγιου σκαγιων", replace "σκα"),
   ("ολογιου ολογια ολογιων", replace "ολο"), ("σογιου σογια σογιων", replace "σο"),
   ("τατογια τατογιου τατογιων", replace "τατο"),
   ("κρεασ κρεατοσ κρεατα κρεατων", replace "κρε"),
   ("περασ περατοσ περατη περατα περατων", replace "περ"),
   ("τερασ τερατοσ τερατα τερατων", replace "τερ"),
   ("φωσ φωτοσ φωτα φωτων", replace "φω"),
   ("καθεστωσ καθεστωτοσ καθεστωτα καθεστωτων", replace "καθεστ"),
   ("γεγονοσ γεγονοτοσ γεγονοτα γεγονοτων", replace "γεγον")]

/-- Endings of verbs in `ίζω`. -/
def izo : Step :=
  rule "ιζα ιζεσ ιζε ιζαμε ιζατε ιζαν ιζανε ιζω ιζεισ ιζει ιζουμε ιζετε ιζουν ιζουνε"
    [(isOneOf "αναμπα εμπα επα ξαναπα πα περιπα αθρο συναθρο δανε", "ι"),
     (isOneOf "μαρκ κορν αμπαρ αρρ βαθυρι βαρκ β βολβορ γκρ γλυκορ γλυκυρ ιμπ λ λου μαρ μ πρ μπρ
       πολυρ π ρ πιπερορ", "ιζ")]

/-- Endings of the past passive in `ώθηκα`. -/
def othika : Step :=
  rule "ωθηκα ωθηκεσ ωθηκε ωθηκαμε ωθηκατε ωθηκαν ωθηκανε"
    [(isOneOf "αλ βι εν υψ λι ζω σ χ", "ων")]

/-- Stems that get their iota back before the endings of the past and the future. -/
def iotaStems : Back → Bool :=
  isOneOf "αναμπα αθρο εμπα εσε εσωκλε επα ξαναπα επε περιπα συναθρο δανε κλε χαρτοπα εξαρχα μετεπε
    αποκλε απεκλε εκλε πε"

/-- Endings of the past in `ισα`. -/
def isa : Step :=
  orElse (single "ισα" "ισ")
    (rule "ισα ισεσ ισε ισαμε ισατε ισαν ισανε"
      [(iotaStems, "ι"),
       (isOneOf "αν αφ γε γιγαντοαφ γκε δημοκρατ κομ γκ μ π πουκαμ ολο λαρ", "ισ")])

/-- Endings of the future in `ίσω`. -/
def iso : Step := rule "ισω ισεισ ισει ισουμε ισετε ισουν ισουνε" [(iotaStems, "ι")]

/-- Endings of adjectives in `ιστός`. -/
def istos : Step :=
  rule "ιστοσ ιστου ιστο ιστε ιστοι ιστων ιστουσ ιστη ιστησ ιστα ιστεσ"
    [(isOneOf "δανε συναθρο κλε σε εσωκλε ασε πλε", "ι"),
     (isOneOf "μ π απ αρ ηδ κτ σκ σχ υψ φα χρ χτ ακτ αορ ασχ ατα αχν αχτ γεμ γυρ εμπ ευπ εχθ ηφα καθ
       κακ κυλ λυγ μακ μεγ ταχ φιλ χωρ", "ιστ")]

/-- Words in `ικισμός` that lose both endings. -/
def ikismos : Endings := .ofGroups
  [("αγνωστικ", replace "αγνωστ"), ("ατομικ", replace "ατομ"), ("γνωστικ", replace "γνωστ"),
   ("εθνικ", replace "εθν"), ("εκλεκτικ", replace "εκλεκτ"), ("σκεπτικ", replace "σκεπτ"),
   ("τοπικ", replace "τοπ"), ("αλεξανδριν", replace "αλεξανδρ"), ("βυζαντιν", replace "βυζαντ"),
   ("θεατριν", replace "θεατρ")]

/-- The whole word, by a table. -/
def whole (t : Endings) : Step := fun g w =>
  (t.longest? 0 w).bind fun found => if found.2.isEmpty then found.1 g found.2 else none

/-- Endings of nouns in `ισμός`. -/
def ismos : Step :=
  andThen
    (rule "ισμο ισμοι ισμοσ ισμου ισμουσ ισμων"
      [(isOneOf "σε μετασε μικροσε εγκλε αποκλε", "ισμ"), (isOneOf "δανε αντιδανε", "ι")])
    (whole ikismos)

/-- Endings of diminutives in `αράκι`. -/
def araki : Step := rule "αρακι αρακια ουδακι ουδακια" [(isOneOf "σ χ", "αρακ")]

/-- Endings of diminutives in `άκι` and `ίτσα`. -/
def aki : Step :=
  rule "ακι ακια ιτσα ιτσασ ιτσεσ ιτσων αρακι αρακια"
    [(isOneOf "ανθρ βαμβ βρ καιμ κον κορ λαβρ λουλ μερ μουστ ναγκασ πλ ρ ρυ σ σκ σοκ σπαν τζ φαρμ χ
       καπακ αλισφ αμβρ κ φυλ κατραπ κλιμ μαλ σλοβ φ σφ τσεχοσλοβ", "ακ"),
     (isOneOf "β βαλ γιαν γλ ζ ηγουμεν καρδ μακρυν νυφ πατερ π τοσ τριπολ", "ιτσ"),
     (endsInOneOf "κορ", "ιτσ")]

/-- Endings of diminutives in `ίδιο`. -/
def idio : Step :=
  rule "ιδιο ιδια ιδιων" [(isOneOf "αιφν ιρ ολο ψαλ", "ιδ"), (endsInOneOf "ε παιχν", "ιδ")]

/-- Endings of diminutives in `ίσκος`. -/
def iskos : Step :=
  rule "ισκοσ ισκου ισκο ισκε" [(isOneOf "δ ιβ μην ρ φραγκ λυκ οβελ", "ισκ")]

/-- Plurals in `άδες`. -/
def ades : Step :=
  let families := endsInOneOf "οκ μαμ μαν μπαμπ πατερ γιαγι νταντ κυρ θει πεθερ"
  rule "αδεσ αδων" [(fun w => !families w, "αδ")]

/-- Plurals in `έδες`. -/
def edes : Step := rule "εδεσ εδων" [(endsInOneOf "οπ ιπ εμπ υπ γηπ δαπ κρασπ μιλ", "εδ")]

/-- Plurals in `ούδες`. -/
def oudes : Step :=
  rule "ουδεσ ουδων"
    [(endsInOneOf "αρκ καλιακ πεταλ λιχ πλεξ σκ σ φλ φρ βελ λουλ χν σπ τραγ φε", "ουδ")]

/-- Genitives in `έως`. -/
def eos : Step := rule "εωσ εων" [(isOneOf "θ δ ελ γαλ ν π ιδ παρ", "ε")]

/-- Endings in `ια`. -/
def ia : Step := rule "ια ιου ιων" [(headIs isVowel, "ι")]

/-- Endings in `ικα`. -/
def ika : Step :=
  rule "ικα ικο ικου ικων"
    [(headIs isVowel, "ικ"),
     (isOneOf "αλ αδ ενδ αμαν αμμοχαλ ηθ ανηθ αντιδ φυσ βρωμ γερ εξωδ καλπ καλλιν καταδ μουλ μπαν
       μπαγιατ μπολ μποσ νιτ ξικ συνομηλ πετσ πιτσ πικαντ πλιατσ ποστελν πρωτοδ σερτ συναδ τσαμ υποδ
       φιλον φυλοδ χασ", "ικ")]

/-- Endings of verbs in `αμε`. -/
def ame : List Step :=
  [single "αγαμε" "αγαμ",
   rule "αγαμε ησαμε ουσαμε ηκαμε ηθηκαμε" [],
   rule "αμε" [(isOneOf "αναπ αποθ αποκ αποστ βουβ ξεθ ουλ πεθ πικρ ποτ σιχ χ", "αμ")]]

/-- Endings of verbs in `ανε`. -/
def ane : List Step :=
  [rule "αγανε ησανε ουσανε ιοντανε ιοτανε ιουντανε οντανε οτανε ουντανε ηκανε ηθηκανε"
    [(isOneOf "τρ τσ", "αγαν")],
   rule "ανε"
    [(headIs isClearVowel, "αν"),
     (isOneOf "βετερ βουλκ βραχμ γ δραδουμ θ καλπουζ καστελ κορμορ λαοπλ μωαμεθ μ μουσουλμ ν ουλ π
       πελεκ πλ πολισ πορτολ σαρακατσ σουλτ τσαρλατ ορφ τσιγγ τσοπ φωτοστεφ χ ψυχοπλ αγ γαλ γερ δεκ
       διπλ αμερικαν ουρ πιθ πουριτ σ ζωντ ικ καστ κοπ λιχ λουθηρ μαιντ μελ σιγ σπ στεγ τραγ τσαγ φ
       ερ αδαπ αθιγγ αμηχ ανικ ανοργ απηγ απιθ ατσιγγ βασ βασκ βαθυγαλ βιομηχ βραχυκ διατ διαφ
       ενοργ θυσ καπνοβιομηχ καταγαλ κλιβ κοιλαρφ λιβ μεγλοβιομηχ μικροβιομηχ νταβ ξηροκλιβ
       ολιγοδαμ ολογαλ πενταρφ περηφ περιτρ πλατ πολυδαπ πολυμηχ στεφ ταβ τετ υπερηφ υποκοπ
       χαμηλοδαπ ψηλοταβ", "αν")]]

/-- Endings of verbs in `ετε`. -/
def ete : List Step :=
  [rule "ησετε" [],
   rule "ετε"
    [(headIs isClearVowel, "ετ"),
     (endsInOneOf "οδ αιρ φορ ταθ διαθ σχ ενδ ευρ τιθ υπερθ ραθ ενθ ροθ σθ πυρ αιν συνδ συν συνθ
       χωρ πον βρ καθ ευθ εκθ νετ ρον αρκ βαρ βολ ωφελ", "ετ"),
     (isOneOf "αβαρ βεν εναρ αβρ αδ αθ αν απλ βαρον ντρ σκ κοπ μπορ νιφ παγ παρακαλ σερπ σκελ συρφ
       τοκ υ δ εμ θαρρ θ", "ετ")]]

/-- Endings of participles in `οντας`. -/
def ontas : Step := rule "οντασ ωντασ" [(isOneOf "αρχ", "οντ"), (endsInOneOf "κρε", "ωντ")]

/-- Endings of verbs in `όμαστε`. -/
def omaste : Step := rule "ομαστε ιομαστε" [(isOneOf "ον", "ομαστ")]

/-- Endings of verbs in `εστε`. -/
def este : List Step :=
  [rule "ιεστε" [(isOneOf "π απ συμπ ασυμπ ακαταπ αμεταμφ", "ιεστ")],
   rule "εστε" [(isOneOf "αλ αρ εκτελ ζ μ ξ παρακαλ προ νισ", "εστ")]]

/-- Endings of the past passive in `ηκα`. -/
def thika : List Step :=
  [rule "ηθηκα ηθηκεσ ηθηκε" [],
   rule "ηκα ηκεσ ηκε"
    [(endsInOneOf "σκωλ σκουλ ναρθ σφ οθ πιθ", "ηκ"),
     (isOneOf "διαθ θ παρακαταθ προσθ συνθ", "ηκ")]]

/-- Endings of the past in `ουσα`. -/
def ousa : Step :=
  rule "ουσα ουσεσ ουσε"
    [(isOneOf "φαρμακ χαδ αγκ αναρρ βρομ εκλιπ λαμπιδ λεχ μ πατ ρ λ μεδ μεσαζ υποτειν αμ αιθ ανηκ
       δεσποζ ενδιαφερ δε δευτερευ καθαρευ πλε τσα", "ουσ"),
     (endsInOneOf "ποδαρ βλεπ πανταχ φρυδ μαντιλ μαλλ κυματ λαχ ληγ φαγ ομ πρωτ", "ουσ")]

/-- Stems in which the endings in `αγα` belong to the stem. -/
def agaStems : Back → Bool :=
  let whole := isOneOf
    "αβαστ πολυφ αδηφ παμφ ρ ασπ αφ αμαλ αμαλλι ανυστ απερ ασπαρ αχαρ δερβεν δροσοπ ξεφ νεοπ νομοτ
     ολοπ ομοτ προστ προσωποπ συμπ συντ τ υποτ χαρ αειπ αιμοστ ανυπ αποτ αρτιπ διατ εν επιτ
     κροκαλοπ σιδηροπ λ ναυ ουλαμ ουρ π τρ μ"
  let ends := endsInOneOf "οφ πελ χορτ λλ σφ ρπ φρ πρ λοχ σμην"
  let others := isOneOf "ψοφ ναυλοχ"
  let otherEnds := endsInOneOf "κολλ"
  fun w => whole w || (ends w && !others w && !otherEnds w)

/-- Endings of the past in `αγα`. -/
def aga : Step := rule "αγα αγεσ αγε" [(agaStems, "αγ")]

/-- Endings of the past in `ησα`. -/
def ise : Step :=
  rule "ησε ησου ησα" [(isOneOf "ν χερσον δωδεκαν ερημον μεγαλον επταν", "ησ")]

/-- Endings of verbs in `ηστε`. -/
def iste : Step :=
  rule "ηστε" [(isOneOf "ασβ σβ αχρ χρ απλ αειμν δυσχρ ευχρ κοινοχρ παλιμψ", "ηστ")]

/-- Endings of verbs in `ουνε`. -/
def oune : Step :=
  rule "ουνε ησουνε ηθουνε" [(isOneOf "ν ρ σπι στραβομουτσ κακομουτσ εξων", "ουν")]

/-- Endings of verbs in `ουμε`. -/
def oume : Step :=
  rule "ουμε ησουμε ηθουμε" [(isOneOf "παρασουσ φ χ ωριοπλ αζ αλλοσουσ ασουσ", "ουμ")]

/-- The plural and genitive of nouns in `μα`. -/
def mata : Endings := .ofGroup "ματα ματων ματοσ" (replace "μα")

/-- Plain endings. -/
def plainEndings : Endings := .ofGroup
  "α αγατε αγαν αει αμαι αν ασ ασαι αται αω ε ει εισ ειτε εσαι εσ εται ι ιεμαι ιεμαστε ιεται ιεσαι
   ιεσαστε ιομασταν ιομουν ιομουνα ιονταν ιοντουσαν ιοσασταν ιοσαστε ιοσουν ιοσουνα ιοταν ιουμα
   ιουμαστε ιουνται ιουνταν η ηδεσ ηδων ηθει ηθεισ ηθειτε ηθηκατε ηθηκαν ηθουν ηθω ηκατε ηκαν ησ
   ησαν ησατε ησει ησεσ ησουν ησω ο οι ομαι ομασταν ομουν ομουνα ονται ονταν οντουσαν οσ οσασταν
   οσαστε οσουν οσουνα οταν ου ουμαι ουμαστε ουν ουνται ουνταν ουσ ουσαν ουσατε υ υσ ω ων" remove

/-- Endings of comparatives and superlatives. -/
def comparison : Endings := .ofGroup "εστερ εστατ οτερ οτατ υτερ υτατ ωτερ ωτατ" remove

/-- The rules up to those for plurals of nouns. -/
def derivation : List Step :=
  [nouns.step, izo, othika, isa, iso, istos, ismos, araki, aki, idio, iskos]

/-- The rules for plurals of nouns. -/
def plurals : List Step := [ades, edes, oudes]

/-- The rules after those for plurals of nouns. -/
def inflection : List Step :=
  [eos, ia, ika] ++ ame ++ ane ++ ete ++ [ontas, omaste] ++ este ++ thika ++
    [ousa, aga, ise, iste, oune, oume]

/-- Carries out rules and tells whether one of them, or one before, has applied. -/
def performMarking (steps : List Step) (start : Bool × Back) : Bool × Back :=
  steps.foldl (fun state s =>
    match s Regions.whole state.2 with
    | some w => (true, w)
    | none => state) start

/-- The stem of a word of three letters or more, without capitals and accents. -/
def stemPlain (w : Back) : Back :=
  let g := Regions.whole
  let (applied, w) := performMarking derivation (false, w)
  let w := performAll plurals g w
  let (applied, w) := performMarking inflection (applied, w)
  let w := perform mata.step g w
  let w := if applied then w else perform plainEndings.step g w
  perform comparison.step g w

/-- The stem of a word. -/
def stem (word : List Char) : List Char :=
  let w := (respell plain word).reverse
  (if w.length < 3 then w else stemPlain w).reverse

end TextAnalysis.Stemming.Greek
