import Phrasebook.Formatting.Numeral

/-!
How locales write numerals, amounts of money, days and times. A pattern is a list of parts, each a
part of what is written or a text that stands for itself.
-/
namespace Phrasebook

inductive AmountPart
  | symbol
  | amount
  | literal (text : Text)
deriving DecidableEq, Repr

inductive DayPart
  | day
  | paddedDay
  | month
  | paddedMonth
  | year
  | yearOfCentury
  | literal (text : Text)
deriving DecidableEq, Repr

def DayPart.name? : DayPart → Option Text
  | day | paddedDay => some "day"
  | month | paddedMonth => some "month"
  | year | yearOfCentury => some "year"
  | literal _ => none

/-- Hours count to twenty-four, or twice to twelve with a marker for the half of the day. -/
inductive TimePart
  | hour
  | paddedHour
  | halfDayHour
  | minute
  | marker
  | literal (text : Text)
deriving DecidableEq, Repr

structure Conventions where
  tag : Text
  marks : NumeralMarks
  credit : List AmountPart
  debit : List AmountPart
  day : List DayPart
  time : List TimePart
  joint : Text
  markers : Text × Text := ("AM", "PM")
  symbols : List (Text × Text)
deriving DecidableEq, Repr

namespace Conventions

def noBreakSpace : Text := ['\xa0']

def narrowNoBreakSpace : Text := ['\u202f']

/-- The symbol before the amount with some text between, and a minus sign before both. -/
def leading (between : Text) : List AmountPart × List AmountPart :=
  ([.symbol, .literal between, .amount], [.literal "-", .symbol, .literal between, .amount])

def trailing : List AmountPart × List AmountPart :=
  ([.amount, .literal noBreakSpace, .symbol],
    [.literal "-", .amount, .literal noBreakSpace, .symbol])

def dayOf (mark : Text) (a b c : DayPart) : List DayPart := [a, .literal mark, b, .literal mark, c]

def clock (hours : TimePart) : List TimePart := [hours, .literal ":", .minute]

def halfDayClock (space : Text) : List TimePart :=
  [.halfDayHour, .literal ":", .minute, .literal space, .marker]

def all : List Conventions :=
  [{ tag := "en_US", marks := ⟨".", ",", 3⟩, credit := (leading []).1, debit := (leading []).2
     day := dayOf "/" .month .day .yearOfCentury, time := halfDayClock narrowNoBreakSpace
     joint := ", ", symbols := [("USD", "$"), ("EUR", "€"), ("JPY", "¥")] },
    { tag := "en_GB", marks := ⟨".", ",", 3⟩, credit := (leading []).1, debit := (leading []).2
      day := dayOf "/" .paddedDay .paddedMonth .year, time := clock .paddedHour
      joint := ", ", symbols := [("USD", "US$"), ("EUR", "€"), ("JPY", "JP¥"), ("GBP", "£")] },
    { tag := "de_DE", marks := ⟨",", ".", 3⟩, credit := trailing.1, debit := trailing.2
      day := dayOf "." .paddedDay .paddedMonth .yearOfCentury, time := clock .paddedHour
      joint := ", ", symbols := [("USD", "$"), ("EUR", "€"), ("JPY", "¥")] },
    { tag := "de_CH", marks := ⟨".", "’", 3⟩, credit := (leading noBreakSpace).1
      debit := [.symbol, .literal "-", .amount]
      day := dayOf "." .paddedDay .paddedMonth .yearOfCentury, time := clock .paddedHour
      joint := ", ", symbols := [("USD", "$"), ("EUR", "EUR"), ("JPY", "¥"), ("CHF", "CHF")] },
    { tag := "fr_FR", marks := ⟨",", narrowNoBreakSpace, 3⟩, credit := trailing.1
      debit := trailing.2, day := dayOf "/" .paddedDay .paddedMonth .year
      time := clock .paddedHour, joint := " "
      symbols := [("USD", "$US"), ("EUR", "€"), ("JPY", "JPY")] },
    { tag := "pl_PL", marks := ⟨",", noBreakSpace, 3⟩, credit := trailing.1, debit := trailing.2
      day := dayOf "." .day .paddedMonth .year, time := clock .paddedHour, joint := ", "
      symbols := [("USD", "USD"), ("EUR", "€"), ("JPY", "JPY"), ("PLN", "zł")] },
    { tag := "pt_BR", marks := ⟨",", ".", 3⟩, credit := (leading noBreakSpace).1
      debit := (leading noBreakSpace).2, day := dayOf "/" .paddedDay .paddedMonth .year
      time := clock .paddedHour, joint := " "
      symbols := [("USD", "US$"), ("EUR", "€"), ("JPY", "JP¥"), ("BRL", "R$")] },
    { tag := "es_ES", marks := ⟨",", ".", 3⟩, credit := trailing.1, debit := trailing.2
      day := dayOf "/" .day .month .yearOfCentury, time := clock .hour, joint := ", "
      symbols := [("USD", "US$"), ("EUR", "€"), ("JPY", "JPY")] },
    { tag := "ja_JP", marks := ⟨".", ",", 3⟩, credit := (leading []).1, debit := (leading []).2
      day := dayOf "/" .year .paddedMonth .paddedDay, time := clock .hour, joint := " "
      symbols := [("USD", "$"), ("EUR", "€"), ("JPY", "￥")] },
    { tag := "hi_IN", marks := ⟨".", ",", 2⟩, credit := (leading []).1, debit := (leading []).2
      day := dayOf "/" .day .month .yearOfCentury, time := halfDayClock " ", joint := ", "
      markers := ("am", "pm")
      symbols := [("USD", "$"), ("EUR", "€"), ("JPY", "JP¥"), ("INR", "₹")] }]

def find? (tag : Text) : Option Conventions := all.find? fun c => c.tag = tag

def firstPart (c : Conventions) : Text := (c.day.findSome? DayPart.name?).getD "day"

def symbol (c : Conventions) (currency : Text) : Text := (c.symbols.lookup currency).getD currency

end Conventions
end Phrasebook
