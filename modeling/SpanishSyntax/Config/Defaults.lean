import SpanishSyntax.Config.Settings

/-!
# Default settings

The grammar, the vocabulary and the knowledge base that everything starts from.
-/

namespace SpanishSyntax.Config

namespace Defaults

open Lexicon (CategoryRule Vocabulary)
open Semantic (Concept)

/-- a sentence: subject, predicate, an optional prepositional phrase, an optional closing mark -/
def ruleText : String :=
  "# sentence: subject, predicate, optional prepositional phrase, optional closing mark\n" ++
  "S      -> SN SV SPOpt Cierre\n" ++
  "SN     -> Det N AdjOpt | N AdjOpt | Pron | Num N AdjOpt\n" ++
  "SV     -> V SVc\n" ++
  "SVc    -> SN | Adv AdvC | ε\n" ++
  "AdvC   -> SN | ε\n" ++
  "SPOpt  -> SP | ε\n" ++
  "SP     -> Prep SN\n" ++
  "AdjOpt -> Adj | ε\n" ++
  "Cierre -> Punt | ε\n" ++
  "\n" ++
  "Det  -> art\n" ++
  "N    -> sust\n" ++
  "Pron -> pronom\n" ++
  "Num  -> num\n" ++
  "V    -> verbo\n" ++
  "Adj  -> adj\n" ++
  "Adv  -> adv\n" ++
  "Prep -> prep\n" ++
  "Punt -> punt\n"

def grammar : GrammarSettings where
  start := "S"
  terminals :=
    ["art", "sust", "pronom", "verbo", "adj", "adv", "prep", "punt", "num"]
  rules := ruleText
  conflictPolicy := .firstListed

/-! ## vocabulary -/

def articles : List String :=
  ["el", "la", "los", "las", "un", "una", "unos", "unas"]

def prepositions : List String :=
  ["a", "ante", "bajo", "con", "contra", "de", "desde", "en", "entre", "hacia", "hasta", "para",
   "por", "según", "sin", "sobre", "tras"]

def pronouns : List String :=
  ["yo", "tu", "él", "ella", "nosotros", "vosotros", "ellos", "ellas", "me", "te", "le", "nos",
   "os", "les", "se", "mi", "ti", "si", "qué", "cuál", "cuánto", "dónde", "cómo"]

def adverbs : List String :=
  ["muy", "bastante", "demasiado", "poco", "mucho", "más", "menos", "tan", "tanto", "casi",
   "aproximadamente", "exactamente", "solamente", "sólo", "apenas", "justo"]

def conjunctions : List String :=
  ["y", "e", "ni", "que", "o", "u", "pero", "aunque", "sino", "mas", "luego", "conque", "porque",
   "pues", "si", "cuando", "mientras", "como", "donde", "según"]

def verbs : List String :=
  ["tener", "tienen", "costar", "cuesta", "vender", "comprar", "entregar", "hacer", "ser", "estar",
   "haber", "cuestan", "hacen", "ofrecen"]

def interrogatives : List String :=
  ["cuanto", "cuantos", "cuanta", "cuantas", "donde", "como", "que", "quien", "quienes", "cuando",
   "porque"]

def adjectives : List String :=
  ["deportivo", "profesional", "cómodo", "resistente", "transpirable", "ligero", "oficial",
   "genuino", "elástico"]

/-- the order decides for words that stand in several lists -/
def rules : List CategoryRule :=
  [⟨"art", articles, none, true⟩,
   ⟨"prep", prepositions, none, true⟩,
   ⟨"pronom", pronouns, none, true⟩,
   ⟨"adv", adverbs, none, true⟩,
   ⟨"conj", conjunctions, none, true⟩,
   ⟨"verbo", verbs, none, false⟩,
   ⟨"interr", interrogatives, none, false⟩,
   ⟨"adj", adjectives, none, false⟩]

def vocabulary : Vocabulary where
  letters := "abcdefghijklmnopqrstuvwxyzABCDEFGHIJKLMNOPQRSTUVWXYZáéíóúüñÁÉÍÓÚÜÑ"
  digits := "0123456789"
  punctuation := ".,;:!?¿¡"
  defaultCategory := "sust"
  numberCategory := "num"
  punctuationCategory := "punt"
  rules := rules

/-! ## meaning -/

def stopwords : List String :=
  ["a", "al", "algo", "algunas", "algunos", "ante", "antes", "como", "con", "contra", "cual",
   "cuando", "de", "del", "desde", "donde", "durante", "e", "el", "ella", "ellas", "ellos", "en",
   "entre", "era", "erais", "eran", "eras", "eres", "es", "esa", "esas", "ese", "eso", "esos",
   "esta", "estaba", "estabais", "estaban", "estabas", "estad", "estada", "estadas", "estado",
   "estados", "estamos", "estando", "estar", "estaremos", "estará", "estarán", "estarás", "estaré",
   "estaréis", "estaría", "estaríais", "estaríamos", "estarían", "estarías", "estas", "este",
   "estemos", "esto", "estos", "estoy", "estuve", "estuviera", "estuvierais", "estuvieran",
   "estuvieras", "estuvieron", "estuviese", "estuvieseis", "estuviesen", "estuvieses", "estuvimos",
   "estuviste", "estuvisteis", "estuviéramos", "estuviésemos", "estuvo", "está", "estábamos",
   "estáis", "están", "estás", "esté", "estéis", "estén", "estés", "fue", "fuera", "fuerais",
   "fueran", "fueras", "fueron", "fuese", "fueseis", "fuesen", "fueses", "fui", "fuimos", "fuiste",
   "fuisteis", "fuéramos", "fuésemos", "ha", "habida", "habidas", "habido", "habidos", "habiendo",
   "habremos", "habrá", "habrán", "habrás", "habré", "habréis", "habría", "habríais", "habríamos",
   "habrían", "habrías", "habéis", "había", "habíais", "habíamos", "habían", "habías", "han",
   "has", "hasta", "hay", "haya", "hayamos", "hayan", "hayas", "hayáis", "he", "hemos", "hube",
   "hubiera", "hubierais", "hubieran", "hubieras", "hubieron", "hubiese", "hubieseis", "hubiesen",
   "hubieses", "hubimos", "hubiste", "hubisteis", "hubiéramos", "hubiésemos", "hubo", "la", "las",
   "le", "les", "lo", "los", "me", "mi", "mis", "mucho", "muchos", "muy", "más", "mí", "mía",
   "mías", "mío", "míos", "nada", "ni", "no", "nos", "nosotras", "nosotros", "nuestra", "nuestras",
   "nuestro", "nuestros", "o", "os", "otra", "otras", "otro", "otros", "para", "pero", "poco",
   "por", "porque", "que", "quien", "quienes", "qué", "se", "sea", "seamos", "sean", "seas",
   "seremos", "será", "serán", "serás", "seré", "seréis", "sería", "seríais", "seríamos", "serían",
   "serías", "seáis", "si", "sido", "siendo", "sin", "sobre", "sois", "somos", "son", "soy", "su",
   "sus", "suya", "suyas", "suyo", "suyos", "sí", "también", "tanto", "te", "tendremos", "tendrá",
   "tendrán", "tendrás", "tendré", "tendréis", "tendría", "tendríais", "tendríamos", "tendrían",
   "tendrías", "tened", "tenemos", "tenga", "tengamos", "tengan", "tengas", "tengo", "tengáis",
   "tenida", "tenidas", "tenido", "tenidos", "teniendo", "tenéis", "tenía", "teníais", "teníamos",
   "tenían", "tenías", "ti", "tiene", "tienen", "tienes", "todo", "todos", "tu", "tus", "tuve",
   "tuviera", "tuvierais", "tuvieran", "tuvieras", "tuvieron", "tuviese", "tuvieseis", "tuviesen",
   "tuvieses", "tuvimos", "tuviste", "tuvisteis", "tuviéramos", "tuviésemos", "tuvo", "tuya",
   "tuyas", "tuyo", "tuyos", "tú", "un", "una", "uno", "unos", "vosotras", "vosotros", "vuestra",
   "vuestras", "vuestro", "vuestros", "y", "ya", "yo", "él", "éramos"]

/-- in the order in which equal scores rank -/
def concepts : List Concept :=
  [⟨"computadora",
    ["ordenador", "PC", "laptop", "computador"],
    ["tecnología", "hardware", "software", "dispositivo"],
    "Dispositivo electrónico que procesa datos según instrucciones almacenadas."⟩,
   ⟨"programar",
    ["codificar", "desarrollar", "implementar"],
    ["software", "código", "algoritmo", "lenguaje"],
    "Proceso de escribir, probar y mantener código fuente de programas informáticos."⟩,
   ⟨"algoritmo",
    ["procedimiento", "método", "proceso"],
    ["computación", "matemáticas", "lógica", "solución"],
    "Conjunto ordenado y finito de operaciones que permite hallar la solución a un problema."⟩,
   ⟨"internet",
    ["red", "web", "ciberespacio"],
    ["comunicación", "global", "información", "conectividad"],
    "Red informática mundial descentralizada que conecta dispositivos de todo el mundo."⟩,
   ⟨"base de datos",
    ["BD", "banco de datos", "almacén de datos"],
    ["información", "almacenamiento", "consulta", "registro"],
    "Conjunto de datos organizados y relacionados entre sí, almacenados sistemáticamente."⟩,
   ⟨"café",
    ["cafeto", "café en grano", "café molido"],
    ["bebida", "cafeína", "energía", "desayuno"],
    "Bebida que se obtiene a partir de los granos tostados y molidos de los frutos de la " ++
    "planta del café."⟩,
   ⟨"Aguila Roja",
    ["café Aguila Roja", "marca de café"],
    ["café", "Colombia", "marca", "producto"],
    "Marca de café colombiano reconocida por su calidad y tradición."⟩,
   ⟨"libra",
    ["lb", "pound", "medida de peso"],
    ["peso", "medida", "sistema imperial", "500 gramos"],
    "Unidad de masa utilizada principalmente en países anglosajones, equivalente a " ++
    "aproximadamente 453,59 gramos."⟩]

end Defaults

def Settings.default : Settings where
  grammar := Defaults.grammar
  lexicon := Defaults.vocabulary
  semantic := ⟨Defaults.stopwords, Defaults.concepts⟩
  outputFormat := "treeviz"

end SpanishSyntax.Config
