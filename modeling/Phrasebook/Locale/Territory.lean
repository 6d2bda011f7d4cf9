import Phrasebook.Text.Basic

/-!
The currencies of territories, and the territories that languages are at home in.
-/
namespace Phrasebook

abbrev CurrencyTable := List (Text × List Text)

def currencyTerritories : CurrencyTable :=
  ([("AUD", ["AU"]), ("AZN", ["AZ"]), ("BGN", ["BG"]), ("BRL", ["BR"]), ("BYN", ["BY"]),
    ("CAD", ["CA"]), ("CHF", ["CH", "LI"]), ("CLP", ["CL"]), ("CNY", ["CN"]), ("CUP", ["CU"]),
    ("DKK", ["DK", "FO"]), ("EGP", ["EG"]),
    ("EUR", ["DE", "ES", "EU", "FI", "FR", "HR", "IT", "LT", "LV", "MT", "NL", "PT", "SK"]),
    ("GBP", ["GB"]), ("HTG", ["HT"]), ("HUF", ["HU"]), ("IDR", ["ID"]), ("ILS", ["IL", "PS"]),
    ("INR", ["BT", "IN"]), ("ISK", ["IS"]), ("JPY", ["JP"])] : CurrencyTable) ++
  ([("KRW", ["KR"]), ("MGA", ["MG"]), ("MKD", ["MK"]), ("MNT", ["MN"]), ("MXN", ["MX"]),
    ("NOK", ["NO"]), ("PAB", ["PA"]), ("PEN", ["PE"]), ("PLN", ["PL"]), ("RON", ["RO"]),
    ("RUB", ["RU"]), ("RWF", ["RW"]), ("SEK", ["SE"]), ("SOS", ["SO"]), ("THB", ["TH"]),
    ("TRY", ["TR"]), ("USD", ["EC", "SV", "US"]), ("UYU", ["UY"]), ("UZS", ["UZ"]),
    ("VES", ["VE"]), ("ZAR", ["LS", "NA", "ZA"])] : CurrencyTable)

def territoryCurrency? (territory : Text) : Option Text :=
  (currencyTerritories.find? fun entry => entry.2.contains territory).map Prod.fst

def homeTerritories : List (Text × Text) :=
  [("az", "AZ"), ("bg", "BG"), ("de", "DE"), ("en", "US"), ("es", "ES"), ("fi", "FI"),
    ("fo", "FO"), ("fr", "FR"), ("hr", "HR"), ("ht", "HT"), ("hu", "HU"), ("id", "ID"),
    ("is", "IS"), ("it", "IT"), ("lt", "LT"), ("lv", "LV"), ("mg", "MG"), ("mk", "MK"),
    ("mn", "MN"), ("mt", "MT"), ("nl", "NL"), ("pl", "PL"), ("pt", "PT"), ("ro", "RO"),
    ("ru", "RU"), ("rw", "RW"), ("sk", "SK"), ("so", "SO"), ("th", "TH"), ("tr", "TR"),
    ("uz", "UZ")]

def homeTerritory? (language : Text) : Option Text := homeTerritories.lookup language

end Phrasebook
