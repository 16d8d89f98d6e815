import Backtest.Proofs.Strategy.Mask

/-!
# The lines of a preset

A preset that is built has its lines: averages of the close, a convergence, a relative strength, or
bands.  Its rules are the tests of these lines, and nothing else of the prices or the parameters.
-/

namespace Backtest.Preset

open Series

variable {α : Type} [Arith α] {prices : Prices α} {params : Params α} {rules : Rules}

theorem length_closeAverage {name : String} {xs : Series α}
    (hxs : closeAverage prices params name = .ok xs) : xs.length = prices.length := by
  obtain ⟨period, _, haverage⟩ := Outcome.bind_eq_ok.1 hxs
  exact length_average haverage

theorem dualAverage_eq_ok (hrules : dualAverage prices params = .ok rules) :
    ∃ fast slow, closeAverage prices params "fastLength" = .ok fast ∧
      closeAverage prices params "slowLength" = .ok slow ∧ rules = sides fast slow := by
  obtain ⟨fast, hfast, hrules⟩ := Outcome.bind_eq_ok.1 hrules
  obtain ⟨slow, hslow, hrules⟩ := Outcome.bind_eq_ok.1 hrules
  injection hrules with hrules
  exact ⟨fast, slow, hfast, hslow, hrules.symm⟩

theorem tripleAverage_eq_ok (hrules : tripleAverage prices params = .ok rules) :
    ∃ fast mid slow, closeAverage prices params "fastLength" = .ok fast ∧
      closeAverage prices params "midLength" = .ok mid ∧
      closeAverage prices params "slowLength" = .ok slow ∧ rules = order fast mid slow := by
  obtain ⟨fast, hfast, hrules⟩ := Outcome.bind_eq_ok.1 hrules
  obtain ⟨mid, hmid, hrules⟩ := Outcome.bind_eq_ok.1 hrules
  obtain ⟨slow, hslow, hrules⟩ := Outcome.bind_eq_ok.1 hrules
  injection hrules with hrules
  exact ⟨fast, mid, slow, hfast, hmid, hslow, hrules.symm⟩

theorem convergence_eq_ok (hrules : convergence prices params = .ok rules) :
    ∃ fast slow signal, periodOf params "fastLength" 14 = .ok fast ∧
      periodOf params "slowLength" 14 = .ok slow ∧ periodOf params "signalLength" 14 = .ok signal ∧
      let lines := Series.convergence fast slow signal prices.close
      rules = sides lines.line lines.signal := by
  obtain ⟨fast, hfast, hrules⟩ := Outcome.bind_eq_ok.1 hrules
  obtain ⟨slow, hslow, hrules⟩ := Outcome.bind_eq_ok.1 hrules
  obtain ⟨signal, hsignal, hrules⟩ := Outcome.bind_eq_ok.1 hrules
  injection hrules with hrules
  exact ⟨fast, slow, signal, hfast, hslow, hsignal, hrules.symm⟩

theorem strength_eq_ok (hrules : strength prices params = .ok rules) :
    ∃ period oversold overbought, periodOf params "rsiPeriod" 14 = .ok period ∧
      (param params "oversold").toReal = .ok oversold ∧
      (param params "overbought").toReal = .ok overbought ∧
      let line := relativeStrength period prices.close
      let bound (level : α) : Series α := List.replicate line.length level
      rules = ⟨[(.openLong, List.zipWith (· && ·) (ready [line]) (crossover line (bound oversold))),
        (.openShort, List.zipWith (· && ·) (ready [line]) (crossunder line (bound overbought)))],
        false⟩ := by
  obtain ⟨period, hperiod, hrules⟩ := Outcome.bind_eq_ok.1 hrules
  obtain ⟨oversold, hoversold, hrules⟩ := Outcome.bind_eq_ok.1 hrules
  obtain ⟨overbought, hoverbought, hrules⟩ := Outcome.bind_eq_ok.1 hrules
  injection hrules with hrules
  exact ⟨period, oversold, overbought, hperiod, hoversold, hoverbought, hrules.symm⟩

theorem bands_eq_ok (hrules : bands prices params = .ok rules) :
    ∃ period width, periodOf params "bbLength" 20 = .ok period ∧
      (param params "bbMult").toReal = .ok width ∧
      let lines := Series.bands period width prices.close
      let ok := ready [lines.upper, lines.basis, lines.lower]
      rules = ⟨[(.openLong, readyWhere ok Arith.less prices.close lines.lower),
        (.openShort, readyWhere ok above prices.close lines.upper),
        (.closeLong, readyWhere ok (fun x y => Arith.atMost y x) prices.close lines.basis),
        (.closeShort, readyWhere ok Arith.atMost prices.close lines.basis)], true⟩ := by
  obtain ⟨period, hperiod, hrules⟩ := Outcome.bind_eq_ok.1 hrules
  obtain ⟨width, hwidth, hrules⟩ := Outcome.bind_eq_ok.1 hrules
  injection hrules with hrules
  exact ⟨period, width, hperiod, hwidth, hrules.symm⟩

end Backtest.Preset
